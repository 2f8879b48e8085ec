import InstallLocator.FileTree.Edit
import InstallLocator.Main
import InstallLocator.Proofs.AddedDepth
import InstallLocator.Proofs.Completeness
import InstallLocator.Proofs.HiveEntries
import InstallLocator.Proofs.History
import InstallLocator.Proofs.HomePatterns
import InstallLocator.Proofs.Precedence
import InstallLocator.Proofs.PrintedLines
import InstallLocator.Proofs.Provenance
import InstallLocator.Proofs.ValidSettings
import InstallLocator.Proofs.WrittenSettings
import InstallLocator.Proofs.IdElement
import InstallLocator.Proofs.IdPattern
import InstallLocator.Proofs.LenientIdentity
import InstallLocator.Proofs.WalkOrder
import InstallLocator.Proofs.SearchRootClients
import InstallLocator.Proofs.LevelText
import InstallLocator.Proofs.SameShape
import InstallLocator.Proofs.ShapeWalks
import InstallLocator.Proofs.MetadataReads
import InstallLocator.Proofs.SameAnswer
import InstallLocator.Proofs.MetadataOutcome
import InstallLocator.Proofs.Confinement
import InstallLocator.Proofs.RootLimit
import InstallLocator.Proofs.OverrideOrder
import InstallLocator.Proofs.SteamInstalls
import InstallLocator.Proofs.UninstallEntries
import InstallLocator.Proofs.IndependentSettings
import InstallLocator.Proofs.DocumentShape
import InstallLocator.Proofs.FallBack
import InstallLocator.Proofs.ListingOrder
import InstallLocator.Proofs.SurveyLog
import InstallLocator.Proofs.WriteOnce
import InstallLocator.Proofs.RegionNames
