/-
  BrokerTopology.Cli.Color — text with looks, and who is shown them.

  A line is a list of spans, each with a look.  A terminal is told of a
  look by codes around the span; plain text has the same spans without
  the codes, so that looks never change what is said or how columns are
  aligned.

  Whether looks are shown is for the environment to say, and else they
  are shown on terminals that know them.  Reports and help each have
  their own rule.

  Main statements:
    * `Line.render_false` — plain text is the texts of the spans.
    * `Line.length_render_false` — a line is as wide as its plain text.
-/
import BrokerTopology.Configuration

namespace BrokerTopology

namespace Cli

/-! ## §1. Looks -/

/-- How a piece of text looks. -/
inductive Look where
  | plain
  | bold
  | dim
  /-- Bold and underlined. -/
  | title
  | green
  | blue
  | red
deriving DecidableEq, Repr

namespace Look

/-- The codes that switch a look on. -/
def opening : Look → List Nat
  | plain => []
  | bold => [1]
  | dim => [2]
  | title => [1, 4]
  | green => [32]
  | blue => [34]
  | red => [31]

/-- The codes that switch a look off: a color gives way to the usual one, all else is reset. -/
def closing : Look → List Nat
  | plain => []
  | bold | dim | title => [0]
  | green | blue | red => [39]

end Look

/-- Codes as a terminal is sent them. -/
def escapes (codes : List Nat) : String :=
  String.join (codes.map fun code => "\x1b[" ++ toString code ++ "m")

/-! ## §2. Lines -/

/-- A piece of text and its look. -/
structure Span where
  text : String
  look : Look := .plain
deriving DecidableEq, Repr

/-- A span as it is written, with its look or without. -/
def Span.render (colored : Bool) (s : Span) : String :=
  if colored then escapes s.look.opening ++ s.text ++ escapes s.look.closing else s.text

/-- A line of text. -/
abbrev Line := List Span

namespace Line

/-- A line without looks. -/
def ofText (text : String) : Line := [{ text }]

/-- A line as it is written. -/
def render (colored : Bool) (line : Line) : String :=
  String.join (line.map (Span.render colored))

/-- How many characters of a line are seen. -/
def width : Line → Nat
  | [] => 0
  | s :: line => s.text.length + width line

theorem render_false (line : Line) : render false line = String.join (line.map Span.text) := by
  have h : Span.render false = Span.text := rfl
  rw [render, h]

theorem length_render_false (line : Line) : (render false line).length = width line := by
  induction line with
  | nil => rfl
  | cons s line ih =>
    simp only [render_false, String.join_cons, String.length_append, width, List.map_cons] at ih ⊢
    rw [ih]

end Line

/-- Lines, each with its end. -/
def unlines (colored : Bool) (lines : List Line) : String :=
  String.join (lines.map fun line => line.render colored ++ "\n")

/-! ## §3. Who is shown looks -/

/-- Which streams of a run are terminals. -/
structure Terminals where
  output : Bool := false
  errors : Bool := false
deriving DecidableEq, Repr

/-- The variables by which services that build and test software are known, whatever their
values. -/
def buildServiceMarks : List String :=
  ["CI_NAME", "GITHUB_ACTION", "GITLAB_CI", "NETLIFY", "TRAVIS", "CODEBUILD_SRC_DIR",
    "BUILDER_OUTPUT", "GITLAB_DEPLOYMENT", "NOW_GITHUB_DEPLOYMENT", "NOW_BUILDER",
    "BITBUCKET_DEPLOYMENT", "GERRIT_PROJECT", "SYSTEM_TEAMFOUNDATIONCOLLECTIONURI", "BITRISE_IO",
    "BUDDY_WORKSPACE_ID", "BUILDKITE", "CIRRUS_CI", "APPVEYOR", "CIRCLECI", "SEMAPHORE", "DRONE",
    "DSARI", "TDDIUM", "STRIDER", "TASKCLUSTER_ROOT_URL", "JENKINS_URL", "bamboo.buildKey",
    "GO_PIPELINE_NAME", "HUDSON_URL", "WERCKER", "MAGNUM", "NEVERCODE", "RENDER", "SAIL_CI",
    "SHIPPABLE"]

/-- The variables that decide on looks. -/
def colorSettings : List String :=
  ["FORCE_COLOR", "CLICOLOR_FORCE", "NO_COLOR", "CLICOLOR", "IGNORE_IS_TERMINAL", "TERM",
    "COLORTERM", "TERM_PROGRAM", "CI", "NODE"] ++ buildServiceMarks

/-- Whether a variable is set, and not to zero. -/
def switchedOn (env : Environment) (name : String) : Bool := (env name).any fun s => s != "0"

/-- Whether a variable is set, and not to the empty text. -/
def filled (env : Environment) (name : String) : Bool := (env name).any fun s => !s.isEmpty

/-- Whether a number of colors is more than none.  A text that is no number asks for some. -/
def asksForColors (level : String) : Bool :=
  match WholeNumber.ofText level with
  | .ok n => n != 0
  | .error _ => level != "false"

/-- Whether the colors of reports are forced. -/
def colorsForced (env : Environment) : Bool :=
  match env "FORCE_COLOR" with
  | some level => asksForColors level
  | none => switchedOn env "CLICOLOR_FORCE"

/-- Whether a variable has one of some values. -/
def isOneOf (env : Environment) (name : String) (values : List String) : Bool :=
  (env name).any fun s => values.contains s

/-- Whether a run is part of a build that a service carries out. -/
def inBuildService (env : Environment) : Bool :=
  isOneOf env "CI" ["true", "1", "woodpecker"] ||
    (env "NODE").any (fun s => s.endsWith "//heroku/node/bin/node") ||
    buildServiceMarks.any fun name => (env name).isSome

/-- Whether the terminal of an environment knows colors.  Any terminal with a name does, but for
the dumb one, which is ruled out before this is asked. -/
def terminalKnowsColors (env : Environment) : Bool :=
  (env "TERM").isSome || (env "COLORTERM").isSome ||
    isOneOf env "TERM_PROGRAM" ["iTerm.app", "Apple_Terminal"] ||
    switchedOn env "CLICOLOR" || inBuildService env

/-- Whether reports are colored on a stream. -/
def reportsColored (env : Environment) (terminal : Bool) : Bool :=
  colorsForced env ||
    (!switchedOn env "NO_COLOR" && env "TERM" != some "dumb" &&
      (terminal || switchedOn env "IGNORE_IS_TERMINAL") && terminalKnowsColors env)

/-- Whether help is colored on a stream. -/
def helpColored (env : Environment) (terminal : Bool) : Bool :=
  !filled env "NO_COLOR" &&
    (filled env "CLICOLOR_FORCE" ||
      (env "CLICOLOR" != some "0" && terminal &&
        ((env "TERM").any (fun s => s != "dumb") || (env "CLICOLOR").isSome ||
          (env "CI").isSome)))

end Cli

end BrokerTopology
