import AppScaffold.Main
import AppScaffold.Proofs.Dialogue.Agreement
import AppScaffold.Proofs.Path.Components
import AppScaffold.Proofs.Path.Lowercase
import AppScaffold.Proofs.Project.Modules
import AppScaffold.Proofs.Project.NewProject
import AppScaffold.Proofs.Script.ImportPlace
import AppScaffold.Proofs.Script.Locating
import AppScaffold.Proofs.Dialogue.Collected
import AppScaffold.Proofs.Project.PlanFiles
import AppScaffold.Proofs.Project.PlanRun
import AppScaffold.Proofs.Disk.Passing
import AppScaffold.Proofs.Disk.Reporting
import AppScaffold.Proofs.Project.Resolution
import AppScaffold.Proofs.Project.Difference
import AppScaffold.Proofs.CommandLine.NewProject
import AppScaffold.Proofs.Dialogue.ProjectCourse
import AppScaffold.Proofs.Dialogue.ArtifactFields
import AppScaffold.Proofs.Dialogue.Menus
import AppScaffold.Proofs.Project.Requests
import AppScaffold.Proofs.Project.Confinement
import AppScaffold.Proofs.Project.StateFiles
import AppScaffold.Proofs.Disk.Repeating
import AppScaffold.Proofs.Script.OctetPatch
import AppScaffold.Proofs.Project.Elements
import AppScaffold.Proofs.Path.Lexical
import AppScaffold.Proofs.Project.Address
import AppScaffold.Proofs.Project.ComponentFiles
import AppScaffold.Proofs.Project.Patchable
import AppScaffold.Proofs.Project.Functions
import AppScaffold.Proofs.Project.Bindings
import AppScaffold.Proofs.Project.FilledSlots
import AppScaffold.Proofs.Config.Loading
import AppScaffold.Proofs.Script.DerivedNames
