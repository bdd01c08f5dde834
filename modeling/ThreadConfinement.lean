import ThreadConfinement.Checker
import ThreadConfinement.Declaration
import ThreadConfinement.Directory
import ThreadConfinement.EffectiveTag
import ThreadConfinement.Finding
import ThreadConfinement.Finding.Sarif
import ThreadConfinement.Glob
import ThreadConfinement.Hierarchy
import ThreadConfinement.Library
import ThreadConfinement.Log
import ThreadConfinement.Marker
import ThreadConfinement.Model
import ThreadConfinement.Model.Fault
import ThreadConfinement.Pass
import ThreadConfinement.Pass.Call
import ThreadConfinement.Pass.FieldAccess
import ThreadConfinement.Pass.Override
import ThreadConfinement.Pass.Resolve
import ThreadConfinement.Pass.Synchronization
import ThreadConfinement.Registry
import ThreadConfinement.Registry.Export
import ThreadConfinement.Registry.Table
import ThreadConfinement.Scope
import ThreadConfinement.Settings
import ThreadConfinement.Settings.Document
import ThreadConfinement.SourceUnit
import ThreadConfinement.Tag
import ThreadConfinement.Tag.Rules
import ThreadConfinement.Text.Blank
import ThreadConfinement.Text.Graphic
import ThreadConfinement.Text.Keyed
import ThreadConfinement.Text.Lines
import ThreadConfinement.Text.Quoted
import ThreadConfinement.Toml.Assembly
import ThreadConfinement.Toml.Document
import ThreadConfinement.Toml.Scalar
import ThreadConfinement.Toml.Scanner
import ThreadConfinement.Toml.Value
import ThreadConfinement.Proofs.Acceptance
import ThreadConfinement.Proofs.Resolution
import ThreadConfinement.Proofs.TagFindings
import ThreadConfinement.Proofs.Dispatch
import ThreadConfinement.Proofs.Precedence
import ThreadConfinement.Proofs.Apart
import ThreadConfinement.Proofs.TableFormat
import ThreadConfinement.Proofs.ChainedExport
import ThreadConfinement.Proofs.TableFile
import ThreadConfinement.Proofs.ConcurrentExport
import ThreadConfinement.Proofs.Actors
import ThreadConfinement.Proofs.HostOrder
import ThreadConfinement.Proofs.Suppression
import ThreadConfinement.Proofs.WellFormed
import ThreadConfinement.Proofs.Accounting
import ThreadConfinement.Proofs.Records
import ThreadConfinement.Proofs.OverrideConflicts
import ThreadConfinement.Proofs.Locks
import ThreadConfinement.Proofs.Propagation
import ThreadConfinement.Proofs.CallViolations
import ThreadConfinement.Proofs.CallingContext
import ThreadConfinement.Proofs.InheritanceConflicts
import ThreadConfinement.Proofs.ParentAgreement
import ThreadConfinement.Proofs.Exemption
import ThreadConfinement.Proofs.MarkerConflicts
import ThreadConfinement.Proofs.FieldAccesses
import ThreadConfinement.Proofs.TableContent
import ThreadConfinement.Proofs.FileExport
import ThreadConfinement.Proofs.EnclosingChains
import ThreadConfinement.Proofs.Skipping
