import BrokerTopology.Host
import BrokerTopology.Main
import BrokerTopology.Proofs.AllOrNothing
import BrokerTopology.Proofs.AppendedEntries
import BrokerTopology.Proofs.AutoDelete
import BrokerTopology.Proofs.BindingSets
import BrokerTopology.Proofs.Commutation
import BrokerTopology.Proofs.ConsumerCounts
import BrokerTopology.Proofs.DamageReports
import BrokerTopology.Proofs.Deliveries
import BrokerTopology.Proofs.ExactRemoval
import BrokerTopology.Proofs.ExclusiveQueues
import BrokerTopology.Proofs.FailedCancels
import BrokerTopology.Proofs.FailedCloses
import BrokerTopology.Proofs.FileSessions
import BrokerTopology.Proofs.GeneratedNames
import BrokerTopology.Proofs.InheritedMessages
import BrokerTopology.Proofs.LogBounds
import BrokerTopology.Proofs.LogTails
import BrokerTopology.Proofs.OwnedQueues
import BrokerTopology.Proofs.QuietRuns
import BrokerTopology.Proofs.Recovery
import BrokerTopology.Proofs.RetiredBrokers
import BrokerTopology.Proofs.SetupScripts
import BrokerTopology.Proofs.ShortestForm
import BrokerTopology.Proofs.TopicMatching
import BrokerTopology.Proofs.TornLines
import BrokerTopology.Proofs.CascadeRounds
