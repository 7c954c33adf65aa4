import ContainerProfiles.Version.Order
import ContainerProfiles.Profile.Edit
import ContainerProfiles.Content
import ContainerProfiles.Inheritance.Linearization
import ContainerProfiles.Inheritance.Linked
import ContainerProfiles.Provision.Repository
import ContainerProfiles.Document.Json.Reader
import ContainerProfiles.Document.Json.Printer
import ContainerProfiles.Profile.Document
import ContainerProfiles.Definition.Document
import ContainerProfiles.Document.Toml.Reader
import ContainerProfiles.Lifecycle
import ContainerProfiles.Lock.Table
import ContainerProfiles.Settings.Document
import ContainerProfiles.Store.Operation
import ContainerProfiles.Store.FileOperation
import ContainerProfiles.OperationError
import ContainerProfiles.Container.Registry
import ContainerProfiles.Event.Audience
import ContainerProfiles.Deployment.Request
import ContainerProfiles.CommandLine.Run
import ContainerProfiles.Event.Document
import ContainerProfiles.Request.Edit
import ContainerProfiles.CommandLine.WorkingFiles
import ContainerProfiles.Main
import ContainerProfiles.Proofs.Entries
import ContainerProfiles.Proofs.Lineage
import ContainerProfiles.Proofs.CatalogEdits
import ContainerProfiles.Proofs.Fallible
import ContainerProfiles.Proofs.Checks
import ContainerProfiles.Proofs.StoreEdits
import ContainerProfiles.Proofs.Changes
import ContainerProfiles.Proofs.Runs
import ContainerProfiles.Proofs.Passes
import ContainerProfiles.Proofs.PassedStarts
import ContainerProfiles.Proofs.StoredProfiles
import ContainerProfiles.Proofs.Assignments
import ContainerProfiles.Proofs.Handles
import ContainerProfiles.Proofs.Reconciling
import ContainerProfiles.Proofs.Ledger
import ContainerProfiles.Proofs.CheckErrors
import ContainerProfiles.Proofs.Conservation
import ContainerProfiles.Proofs.Listening
import ContainerProfiles.Proofs.Onlookers
import ContainerProfiles.Proofs.Desired
import ContainerProfiles.Proofs.Synchronisation
import ContainerProfiles.Proofs.ForestRuns
import ContainerProfiles.Proofs.FailedWrites
import ContainerProfiles.Proofs.LockScenes
import ContainerProfiles.Proofs.Transcripts
import ContainerProfiles.Proofs.Updates
import ContainerProfiles.Proofs.Commuting
import ContainerProfiles.Proofs.FailedWalks
import ContainerProfiles.Proofs.Traversals
import ContainerProfiles.Proofs.Postorders
import ContainerProfiles.Proofs.Merging
import ContainerProfiles.Proofs.Survivors
import ContainerProfiles.Proofs.RepeatedStarts
import ContainerProfiles.Proofs.Departures
import ContainerProfiles.Proofs.Flattening
import ContainerProfiles.Proofs.MoreRoots
import ContainerProfiles.Proofs.LinkedViews
import ContainerProfiles.Proofs.Resolution
import ContainerProfiles.Proofs.SharingModes
import ContainerProfiles.Proofs.Candidates
import ContainerProfiles.Proofs.RepeatedPasses
import ContainerProfiles.Proofs.Teardowns
import ContainerProfiles.Proofs.OptionalRequirements
import ContainerProfiles.Proofs.InstallReplays
import ContainerProfiles.Proofs.Previews
import ContainerProfiles.Proofs.ProfileFiles
import ContainerProfiles.Proofs.VersionSpellings
import ContainerProfiles.Proofs.RuntimeDirectives
import ContainerProfiles.Proofs.SealedDocuments
import ContainerProfiles.Proofs.ResourceNames
import ContainerProfiles.Proofs.HeldKeys
import ContainerProfiles.Proofs.SavedSettings
import ContainerProfiles.Proofs.CopiedVersions
