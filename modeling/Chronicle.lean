import Chronicle.Describe
import Chronicle.Form.View
import Chronicle.Settings.Toml
import Chronicle.Proofs.Edits
import Chronicle.Proofs.Views
import Chronicle.Proofs.Replica
import Chronicle.Proofs.Conduct
import Chronicle.Proofs.Exchange
import Chronicle.Proofs.Serial
import Chronicle.Proofs.Lives
import Chronicle.Proofs.Attempts
import Chronicle.Proofs.LastWriter
import Chronicle.Proofs.Batches
import Chronicle.Proofs.Placement
import Chronicle.Proofs.Relocation
import Chronicle.Proofs.VersionOrder
import Chronicle.Proofs.Contention
import Chronicle.Proofs.Clash
import Chronicle.Proofs.Names
import Chronicle.Proofs.Catalogue
import Chronicle.Proofs.Retries
import Chronicle.Proofs.WellFormed
import Chronicle.Proofs.Grammar
import Chronicle.Proofs.Renderings
import Chronicle.Proofs.Failures
import Chronicle.Proofs.Pruning
import Chronicle.Proofs.Sweeps
import Chronicle.Proofs.Company
import Chronicle.Proofs.Stages
import Chronicle.Proofs.Races
import Chronicle.Proofs.Bootstrap
import Chronicle.Proofs.Repetitions
