import RdmRegistry.Live.Race
import RdmRegistry.Proofs.DirectoryLoad
import RdmRegistry.Settings.Environment
import RdmRegistry.Workspace
import RdmRegistry.Proofs.DirectoryContents
import RdmRegistry.Proofs.Race.Linearizable
import RdmRegistry.Proofs.Race.Newest
import RdmRegistry.Proofs.DefinitionLoad
import RdmRegistry.Proofs.Lookup
import RdmRegistry.Proofs.Validity
import RdmRegistry.Proofs.OverridesLoad
import RdmRegistry.Proofs.ScopedLookup
import RdmRegistry.Proofs.SourceLoad
import RdmRegistry.Proofs.FileOrder
import RdmRegistry.Proofs.ParseOrder
import RdmRegistry.Proofs.Dump
import RdmRegistry.Proofs.Serving
import RdmRegistry.Proofs.Race.Progress
import RdmRegistry.Proofs.EntryOrder
import RdmRegistry.Proofs.FirstRepeat
import RdmRegistry.Proofs.ManufacturerOrder
import RdmRegistry.Proofs.DirectBuild
import RdmRegistry.Proofs.UsableSettings
import RdmRegistry.Proofs.IndexPositions
import RdmRegistry.Proofs.FirstViolation
import RdmRegistry.Proofs.RepeatedOverrides
import RdmRegistry.Proofs.EnvironmentSettings
import RdmRegistry.Proofs.Replacing
import RdmRegistry.Proofs.LoadLog
import RdmRegistry.Proofs.Toml.Scanning
import RdmRegistry.Proofs.Toml.WrittenStrings
import RdmRegistry.Proofs.Toml.WrittenFields
import RdmRegistry.Proofs.Formats
import RdmRegistry.Proofs.SettingsForms
