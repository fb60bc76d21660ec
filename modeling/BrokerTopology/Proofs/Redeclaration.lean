/-
  BrokerTopology.Proofs.Redeclaration — what was declared or bound once
  can be declared or bound again.

  An operation that sets something up, when it succeeds, finds its site
  taken and leaves everything as it is, or it finds it free and puts
  something there.  Whether it is accepted is told by what is at the site
  and, for a binding, by its two ends.

  A script is run again on a topology that retraces it: at each site
  there is what the first run had found or put there, or nothing yet, and
  nothing only if what was put there does not outlive the broker.  So the
  operation is accepted, and what it puts there is not recorded.

  Main statements:
    * `Operation.setUp_of_ok` — what an operation that sets something up
      comes to.
    * `Operation.accepted_again` — where it is accepted again.
    * `Operation.again` — it keeps retracing what was set up, and records
      nothing.
-/
import BrokerTopology.Proofs.Sites

namespace BrokerTopology

namespace Operation

open BrokerTopology.Topology

/-! ## §1. What is set up -/

/-- What an operation sets up, and where, if that is what it does: it declares an exchange, or a
queue under a name, or it binds. -/
def setsUp? : Operation → Option (Site × Fixture)
  | declareExchange d _ => some (.exchange d.name, .exchange { definition := d })
  | declareQueue d _ =>
    if d.name = "" then none
    else some (.queue d.name, .queue { definition := d, owner := LiveState.ownerOf .admin d })
  | bind b => some (.binding b, .binding)
  | _ => none

theorem setsUp?_declareQueue {d : QueueDef} {passive : Bool} {site : Site} {fixture : Fixture}
    (hop : setsUp? (.declareQueue d passive) = some (site, fixture)) :
    d.name ≠ "" ∧ .queue d.name = site ∧
      .queue { definition := d, owner := LiveState.ownerOf .admin d } = fixture := by
  replace hop : (if d.name = "" then none else some _) = some (site, fixture) := hop
  split at hop
  next => cases hop
  next hname => exact ⟨hname, Prod.mk.inj (Option.some.inj hop)⟩

/-- What becomes of a site, when something is set up there. -/
inductive SetUp (s : LiveState) (site : Site) (fixture : Fixture) (change : Change Answer) : Prop
  /-- It was taken, and everything is left as it is. -/
  | kept (hlive : change.live = s) (hops : change.ops = [])
      (htaken : (s.topology.look site).isSome = true)
  /-- It was free.  Only what lasts is recorded. -/
  | added (hfree : s.topology.look site = none)
      (hputs : s.topology.Puts site fixture change.live.topology)
      (hlasts : change.ops ≠ [] → change.live.topology.lasts site = true)

variable {s s' : LiveState} {matcher matcher' : Matcher} {op : Operation} {site : Site}
  {fixture : Fixture} {change change' : Change Answer}

/-- Nothing is lost. -/
theorem SetUp.within (h : SetUp s site fixture change) :
    s.topology.Within change.live.topology := by
  cases h with
  | kept hlive => exact hlive ▸ .refl _
  | added hfree hputs => exact hputs.within hfree

/-- What is checked of a name that a queue is declared under does not depend on what is there. -/
theorem declareQueue_named {conn : ConnectionId} {d : QueueDef} {passive : Bool}
    {change : Change QueueDeclared} (hname : d.name ≠ "")
    (hd : LiveState.declareQueue conn d passive s = .ok change) :
    LiveState.declareQueue conn d passive = LiveState.declareNamedQueue conn d passive := by
  unfold LiveState.declareQueue at hd ⊢
  rw [if_neg hname] at hd
  obtain ⟨_, hlength, hd⟩ := ok_of_bind hd
  split at hd
  next => cases hd
  next hreserved =>
    funext s'
    rw [if_neg hname, hlength]
    exact if_neg hreserved

/-- An exchange that is not there yet, and that is declared, is taken in. -/
theorem declareExchange_of_absent {d : ExchangeDef} {passive : Bool} {change : Change Unit}
    (hname : d.name ≠ Name.defaultExchange) (hx : s.topology.registry.exchange? d.name = none)
    (hd : LiveState.declareExchange d passive s = .ok change) :
    change =
      { answer := ()
        ops := if d.durable then [.declareExchange d.name d.kind d.autoDelete] else []
        live := s.withTopology (s.topology.addExchange d) } := by
  obtain ⟨-, -, hd⟩ := ok_of_bind hd
  rw [if_neg hname] at hd
  simp only [hx] at hd
  split at hd
  next => cases hd
  next =>
    split at hd
    next => cases hd
    next =>
      injection hd with hd
      exact hd.symm

/-- So is a queue. -/
theorem declareNamedQueue_of_absent {conn : ConnectionId} {d : QueueDef} {passive : Bool}
    {change : Change QueueDeclared} (hq : s.topology.registry.queue? d.name = none)
    (hd : LiveState.declareNamedQueue conn d passive s = .ok change) :
    let live := s.withTopology (s.topology.addQueue d (LiveState.ownerOf conn d))
    change =
      { answer := live.declared d.name
        ops := if d.persistent then [.declareQueue d.name d.autoDelete] else []
        live } := by
  unfold LiveState.declareNamedQueue at hd
  simp only [hq] at hd
  split at hd
  next => cases hd
  next =>
    injection hd with hd
    exact hd.symm

theorem declareExchange_setUp (hwf : s.topology.WellFormed) {d : ExchangeDef} {passive : Bool}
    (hd : decide matcher .admin (.declareExchange d passive) s = .ok change) :
    SetUp s (.exchange d.name) (.exchange { definition := d }) change := by
  obtain ⟨inner, hinner, rfl⟩ := ok_of_map hd
  cases hx : s.topology.registry.exchange? d.name with
  | some x =>
    obtain rfl | ⟨hnew, -⟩ := LiveState.declareExchange_ok hinner
    · exact .kept rfl rfl (by rw [look, hx]; rfl)
    · cases hx.symm.trans hnew
  | none =>
    have hname : d.name ≠ Name.defaultExchange := by
      intro hdefault
      have hbuiltin := hwf.isBuiltin_of_absent hx
      rw [hdefault] at hbuiltin
      exact absurd hbuiltin (by decide)
    obtain rfl := declareExchange_of_absent hname hx hinner
    refine .added (by rw [look, hx]; rfl) (puts_addExchange s.topology d) fun hops => ?_
    show Option.any _ ((s.topology.addExchange d).registry.exchange? d.name) = true
    rw [exchange?_addExchange, if_pos rfl]
    by_contra hdurable
    exact hops (if_neg hdurable)

theorem declareQueue_setUp {d : QueueDef} {passive : Bool} (hname : d.name ≠ "")
    (hd : decide matcher .admin (.declareQueue d passive) s = .ok change) :
    SetUp s (.queue d.name)
      (.queue { definition := d, owner := LiveState.ownerOf .admin d }) change := by
  obtain ⟨inner, hinner, rfl⟩ := ok_of_map hd
  rw [declareQueue_named hname hinner] at hinner
  cases hq : s.topology.registry.queue? d.name with
  | some q =>
    obtain rfl | ⟨hnew, -⟩ := LiveState.declareNamedQueue_ok hinner
    · exact .kept rfl rfl (by rw [look, hq]; rfl)
    · cases hq.symm.trans hnew
  | none =>
    obtain rfl := declareNamedQueue_of_absent hq hinner
    refine .added (by rw [look, hq]; rfl) (puts_addQueue s.topology d _) fun hops => ?_
    show Option.any _ ((s.topology.addQueue d _).registry.queue? d.name) = true
    rw [queue?_addQueue, if_pos rfl]
    by_contra hpersistent
    exact hops (if_neg hpersistent)

theorem bind_setUp {b : Binding} (hd : decide matcher .admin (.bind b) s = .ok change) :
    SetUp s (.binding b) .binding change := by
  obtain ⟨inner, hinner, rfl⟩ := ok_of_map hd
  obtain ⟨-, -, hinner⟩ := ok_of_bind hinner
  obtain ⟨-, -, hinner⟩ := ok_of_bind hinner
  obtain ⟨-, -, hinner⟩ := ok_of_bind hinner
  split at hinner
  next hb =>
    injection hinner with hinner
    subst hinner
    exact .kept rfl rfl (by rw [look, if_pos hb]; rfl)
  next hb =>
    injection hinner with hinner
    subst hinner
    refine .added (if_neg hb) (puts_addBinding s.topology b) fun hops => ?_
    have hmem : b ∈ (s.topology.addBinding b).bindings := mem_addBinding.2 (Or.inl rfl)
    refine Bool.and_eq_true_iff.2 ⟨BindingTable.mem_iff_contains.1 hmem, ?_⟩
    show (s.topology.addBinding b).isPersistent b = true
    rw [isPersistent, (addBinding_rest s.topology b).1]
    by_contra hpersistent
    exact hops (if_neg hpersistent)

/-- What becomes of the site of an operation that succeeds. -/
theorem setUp_of_ok (hwf : s.topology.WellFormed) (hop : op.setsUp? = some (site, fixture))
    (hd : op.decide matcher .admin s = .ok change) : SetUp s site fixture change := by
  cases op with
  | declareExchange d passive =>
    obtain ⟨rfl, rfl⟩ := Prod.mk.inj (Option.some.inj hop)
    exact declareExchange_setUp hwf hd
  | declareQueue d passive =>
    obtain ⟨hname, rfl, rfl⟩ := setsUp?_declareQueue hop
    exact declareQueue_setUp hname hd
  | bind b =>
    obtain ⟨rfl, rfl⟩ := Prod.mk.inj (Option.some.inj hop)
    exact bind_setUp hd
  | _ => cases hop

/-! ## §2. What is accepted -/

/-- When the declaration of an exchange is accepted. -/
theorem isOk_declareExchange (d : ExchangeDef) (passive : Bool) (s : LiveState) :
    (LiveState.declareExchange d passive s).isOk =
      (!Name.isOverlong d.name &&
        if d.name = Name.defaultExchange then passive
        else
          match s.topology.registry.exchange? d.name with
          | some x => passive || (x.definition.mismatch? d).isNone
          | none => !passive && !Name.isReserved d.name) := by
  unfold LiveState.declareExchange LiveState.checkLength
  cases Name.isOverlong d.name with
  | true => rfl
  | false =>
    simp only [Bool.false_eq_true, ↓reduceIte, Bool.not_false, Bool.true_and]
    show Except.isOk (if d.name = Name.defaultExchange then _ else _) = _
    split
    next => cases passive <;> rfl
    next =>
      cases s.topology.registry.exchange? d.name with
      | some x =>
        cases passive with
        | true => rfl
        | false => simp only; cases x.definition.mismatch? d <;> rfl
      | none =>
        cases passive with
        | true => rfl
        | false => cases Name.isReserved d.name <;> rfl

/-- When the declaration of a queue whose name is settled is accepted. -/
theorem isOk_declareNamedQueue (d : QueueDef) (passive : Bool) (s : LiveState) :
    (LiveState.declareNamedQueue .admin d passive s).isOk =
      match s.topology.registry.queue? d.name with
      | some q => passive || (q.definition.mismatch? d).isNone
      | none => !passive := by
  unfold LiveState.declareNamedQueue
  cases s.topology.registry.queue? d.name with
  | some q =>
    simp only [q.accessibleBy_admin, Bool.not_true, Bool.false_eq_true, ↓reduceIte]
    cases passive with
    | true => rfl
    | false => cases q.definition.mismatch? d <;> rfl
  | none => cases passive <;> rfl

/-- The declaration of an exchange is accepted again. -/
theorem declareExchange_again {d : ExchangeDef} {passive : Bool} {change : Change Unit}
    (hd : LiveState.declareExchange d passive s = .ok change)
    (hthere : s'.topology.registry.exchange? d.name = s.topology.registry.exchange? d.name ∨
      s'.topology.registry.exchange? d.name = some { definition := d }) :
    (LiveState.declareExchange d passive s').isOk = true := by
  have hok : (LiveState.declareExchange d passive s).isOk = true := by rw [hd]; rfl
  rw [isOk_declareExchange] at hok ⊢
  rcases hthere with hthere | hthere
  · rwa [hthere]
  · obtain ⟨hlength, hok⟩ := Bool.and_eq_true_iff.1 hok
    rw [hlength, hthere, Bool.true_and]
    split at hok
    next hname => rwa [if_pos hname]
    next hname => simp [hname, d.mismatch?_self]

/-- So is that of a queue. -/
theorem declareNamedQueue_again {d : QueueDef} {passive : Bool} {change : Change QueueDeclared}
    (hd : LiveState.declareNamedQueue .admin d passive s = .ok change)
    (hthere : (s'.topology.registry.queue? d.name).map Queue.unnumbered =
        (s.topology.registry.queue? d.name).map Queue.unnumbered ∨
      (s'.topology.registry.queue? d.name).map Queue.unnumbered =
        some { definition := d, owner := LiveState.ownerOf .admin d }) :
    (LiveState.declareNamedQueue .admin d passive s').isOk = true := by
  have hok : (LiveState.declareNamedQueue .admin d passive s).isOk = true := by rw [hd]; rfl
  rw [isOk_declareNamedQueue] at hok ⊢
  cases hq' : s'.topology.registry.queue? d.name with
  | none =>
    rw [hq'] at hthere
    rcases hthere with hthere | hthere
    · rw [Option.map_eq_none_iff.1 hthere.symm] at hok
      exact hok
    · cases hthere
  | some q' =>
    rw [hq', Option.map_some] at hthere
    rcases hthere with hthere | hthere
    · obtain ⟨q, hq, hrecord⟩ := Option.map_eq_some_iff.1 hthere.symm
      rw [hq] at hok
      simp only [← Queue.definition_congr hrecord]
      exact hok
    · have hdefinition : q'.definition = d :=
        congrArg Queue.definition (Option.some.inj hthere)
      simp [hdefinition, d.mismatch?_self]

/-- So is a binding, as long as there is what it binds. -/
theorem bind_again {b : Binding} {change : Change Unit}
    (hd : LiveState.bind .admin b s = .ok change) (hs : s.topology.Within s'.topology) :
    (LiveState.bind .admin b s').isOk = true := by
  obtain ⟨_, hbindable, hd⟩ := ok_of_bind hd
  obtain ⟨q, hq, hd⟩ := ok_of_bind hd
  obtain ⟨x, hx, -⟩ := ok_of_bind hd
  obtain ⟨q', hq', -⟩ := hs.queue (LiveState.queueFor_ok hq)
  have hx' := hs.exchange (LiveState.exchangeOf_ok hx)
  unfold LiveState.bind
  rw [hbindable, LiveState.queueFor_admin, hq', LiveState.exchangeOf, hx']
  show Except.isOk (if s'.topology.bindings.contains b = true then _ else _) = true
  split
  next => rfl
  next => rfl

/-- What was accepted is accepted again where as much is there and the site is as it was, or as it
was set up. -/
theorem accepted_again (hop : op.setsUp? = some (site, fixture))
    (hd : op.decide matcher .admin s = .ok change) (hs : s.topology.Within s'.topology)
    (hsite : s'.topology.look site = s.topology.look site ∨
      s'.topology.look site = some fixture) :
    ∃ change', op.decide matcher' .admin s' = .ok change' := by
  cases op with
  | declareExchange d passive =>
    obtain ⟨rfl, rfl⟩ := Prod.mk.inj (Option.some.inj hop)
    obtain ⟨inner, hinner, rfl⟩ := ok_of_map hd
    obtain ⟨change', hd'⟩ := ok_of_isOk (declareExchange_again hinner
      (hsite.imp look_exchange_inj look_exchange.1))
    exact ⟨_, congrArg (Except.map _) hd'⟩
  | declareQueue d passive =>
    obtain ⟨hname, rfl, rfl⟩ := setsUp?_declareQueue hop
    obtain ⟨inner, hinner, rfl⟩ := ok_of_map hd
    have hnamed := declareQueue_named hname hinner
    rw [hnamed] at hinner
    obtain ⟨change', hd'⟩ := ok_of_isOk (declareNamedQueue_again hinner
      (hsite.imp look_queue_inj look_queue.1))
    rw [← hnamed] at hd'
    exact ⟨_, congrArg (Except.map _) hd'⟩
  | bind b =>
    obtain ⟨inner, hinner, rfl⟩ := ok_of_map hd
    obtain ⟨change', hd'⟩ := ok_of_isOk (bind_again hinner hs)
    exact ⟨_, congrArg (Except.map _) hd'⟩
  | _ => cases hop

/-! ## §3. Once more -/

/-- Where a run retraces an earlier one, there is at each site what the earlier one had found or
put there, or there was nothing before. -/
theorem SetUp.retraced {t : Topology} (hset : SetUp s site fixture change)
    (h : s'.topology.Retraces s.topology t) (hafter : change.live.topology.Within t) :
    s'.topology.look site = s.topology.look site ∨ s'.topology.look site = some fixture := by
  cases hnow : s'.topology.look site with
  | none =>
    refine Or.inl (Eq.symm (Option.eq_none_iff_forall_not_mem.2 fun found hfound => ?_))
    cases hnow.symm.trans (h.above site found hfound)
  | some found =>
    cases hset with
    | kept _ _ htaken =>
      obtain ⟨before, hbefore⟩ := Option.isSome_iff_exists.1 htaken
      exact Or.inl ((hnow.symm.trans (h.above site before hbefore)).trans hbefore.symm)
    | added _ hputs =>
      exact Or.inr ((h.below site found hnow).symm.trans (hafter site fixture hputs.look_site))

/-- What is set up again records nothing, and keeps retracing what was set up before.  It changes
nothing where everything is there. -/
theorem SetUp.retraces {t : Topology} (hset : SetUp s site fixture change)
    (hset' : SetUp s' site fixture change') (h : s'.topology.Retraces s.topology t)
    (hafter : change.live.topology.Within t) :
    change'.ops = [] ∧ change'.live.topology.Retraces change.live.topology t ∧
      (t.Within s'.topology → change'.live = s') := by
  have hsite := hset.retraced h hafter
  cases hset' with
  | kept hlive hops htaken =>
    refine ⟨hops, ⟨?_, hlive ▸ h.below, hlive ▸ h.lasting⟩, fun _ => hlive⟩
    rw [hlive]
    cases hset with
    | kept hlive => exact hlive ▸ h.above
    | added hfree hputs =>
      rw [hfree] at hsite
      exact hputs.within_of h.above (hsite.resolve_left (Option.isSome_iff_ne_none.1 htaken))
  | added hfree hputs hlasts =>
    cases hset with
    | kept _ _ htaken =>
      have hthere := h.above.isSome_look htaken
      rw [hfree] at hthere
      cases hthere
    | added _ hputs' =>
      have hend : t.look site = some fixture := hafter site fixture hputs'.look_site
      have hbelow := hputs.within_of h.below hend
      have hgrows := hputs.within hfree
      refine ⟨?_, ⟨?_, hbelow, ?_⟩, ?_⟩
      · -- what lasts would be there
        by_contra hops
        have hthere := h.lasting site (hbelow.lasts (hlasts hops))
        rw [hfree] at hthere
        cases hthere
      · exact hputs'.within_of (h.above.trans hgrows) hputs.look_site
      · exact fun other hlasting => hgrows.isSome_look (h.lasting other hlasting)
      · intro hall
        cases hfree.symm.trans (hall site fixture hend)

/-- What was set up once is set up again, records nothing, and keeps retracing what was set up. -/
theorem again (matcher' : Matcher) {t : Topology} (hwf : s.topology.WellFormed)
    (hwf' : s'.topology.WellFormed) (h : s'.topology.Retraces s.topology t)
    (hop : op.setsUp? = some (site, fixture)) (hd : op.decide matcher .admin s = .ok change)
    (hafter : change.live.topology.Within t) :
    ∃ change', op.decide matcher' .admin s' = .ok change' ∧ change'.ops = [] ∧
      change'.live.topology.Retraces change.live.topology t ∧
      (t.Within s'.topology → change'.live = s') := by
  have hset := setUp_of_ok hwf hop hd
  obtain ⟨change', hd'⟩ := accepted_again hop hd h.above (hset.retraced h hafter)
  exact ⟨change', hd', hset.retraces (setUp_of_ok hwf' hop hd') h hafter⟩

end Operation

end BrokerTopology
