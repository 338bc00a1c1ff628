import LedgerDrill.Canned
import LedgerDrill.Folder
import LedgerDrill.Rehearsal
import LedgerDrill.Scripted
import LedgerDrill.Main
import LedgerDrill.Proofs.Cluster.Copies
import LedgerDrill.Proofs.Workload.Conservation
import LedgerDrill.Proofs.Workload.Vocabulary
import LedgerDrill.Proofs.Experiment.Demands
import LedgerDrill.Proofs.Experiment.Aborts
import LedgerDrill.Proofs.Cluster.Fencing
import LedgerDrill.Proofs.Experiment.Removal
import LedgerDrill.Proofs.Experiment.Reports
import LedgerDrill.Proofs.Outcome.Handles
import LedgerDrill.Proofs.Workload.Readings
import LedgerDrill.Proofs.Workload.Discipline
import LedgerDrill.Proofs.Cluster.Dialogues
import LedgerDrill.Proofs.Cluster.Journal
import LedgerDrill.Proofs.Cluster.Undisturbed
import LedgerDrill.Proofs.Cluster.Reasons
import LedgerDrill.Proofs.Control.Commands
import LedgerDrill.Proofs.Outcome.Censoring
import LedgerDrill.Proofs.Outcome.Tables
import LedgerDrill.Proofs.Experiment.Divergence
import LedgerDrill.Proofs.Config
import LedgerDrill.Proofs.Experiment.Setup
