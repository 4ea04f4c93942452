import Localization.Main
import Localization.Proofs.Harvest
import Localization.Proofs.Json.Decimal
import Localization.Proofs.Program.Exchanged
import Localization.Proofs.Program.Outputs
import Localization.Proofs.Provider.Concurrent
import Localization.Proofs.Pseudo
import Localization.Proofs.Script.Anchored
import Localization.Proofs.Script.Reordered
import Localization.Proofs.Xliff.History
import Localization.Proofs.Xliff.Repeated
import Localization.Proofs.Xliff.WellFormed
import Localization.Proofs.Script.Spelling
import Localization.Proofs.Script.Grammar.Quoted
import Localization.Proofs.Script.Filter
import Localization.Proofs.Script.Modes
import Localization.Proofs.File.Standing
import Localization.Proofs.File.Unsought
import Localization.Proofs.File.Beside
import Localization.Proofs.Program.Twice
import Localization.Proofs.Script.Token
import Localization.Proofs.Script.InPlace
import Localization.Proofs.Script.Sound
import Localization.Proofs.Script.Template
import Localization.Proofs.Script.Refused
import Localization.Proofs.Batch.Limits
import Localization.Proofs.Bundle.Merged
import Localization.Proofs.Harvest.Collisions
import Localization.Proofs.Xliff.Visited
import Localization.Proofs.Xliff.Rearranged
import Localization.Proofs.Placeholder.Missing
import Localization.Proofs.Markup.Protection
import Localization.Proofs.File.Asked
import Localization.Proofs.File.Manifest
import Localization.Proofs.Xliff.Ids
import Localization.Proofs.Order.Utf16
