import RobotArena.CommandLine.Folder
import RobotArena.Main
import RobotArena.Snapshot.Settings
import RobotArena.Snapshot.World
import RobotArena.Proofs.Compilation.Plant
import RobotArena.Proofs.Compilation.Desk
import RobotArena.Proofs.Compilation.Tick
import RobotArena.Proofs.Compilation.Generations
import RobotArena.Proofs.Compilation.Flight
import RobotArena.Proofs.Compilation.Reading
import RobotArena.Proofs.Compilation.Freshness
import RobotArena.Proofs.Compilation.Dependents
import RobotArena.Proofs.Compilation.Status
import RobotArena.Proofs.Compilation.Roster
import RobotArena.Proofs.Compilation.Book
import RobotArena.Proofs.Compilation.Versions
import RobotArena.Proofs.Compilation.Reports
import RobotArena.Proofs.Compilation.Edges
import RobotArena.Proofs.Compilation.Docket
import RobotArena.Proofs.Compilation.Tellings
import RobotArena.Proofs.Compilation.Lookups
import RobotArena.Proofs.Compilation.Uploads
import RobotArena.Proofs.Compilation.Offers
import RobotArena.Proofs.Compilation.Tallies
import RobotArena.Proofs.Compilation.Spared
import RobotArena.Proofs.Compilation.Publications
import RobotArena.Proofs.Compilation.Backoff
import RobotArena.Proofs.Machine.Loading
import RobotArena.Proofs.World.Ties
import RobotArena.Proofs.Arena.Binding
import RobotArena.Proofs.Machine.Slices
import RobotArena.Proofs.Isa.Encoding
import RobotArena.Proofs.Machine.Traps
import RobotArena.Proofs.Assembly.Assembled
import RobotArena.Proofs.External.Table
import RobotArena.Proofs.Assembly.Calls
import RobotArena.Proofs.Assembly.Textual
import RobotArena.Proofs.Assembly.Cycles
import RobotArena.Proofs.Assembly.Prologue
import RobotArena.Proofs.Assembly.Constants
import RobotArena.Proofs.External.Radio
import RobotArena.Proofs.Machine.Stack
import RobotArena.Proofs.Machine.Talk
import RobotArena.Proofs.World.Cargo
import RobotArena.Proofs.World.Radio
import RobotArena.Proofs.External.Rejection
import RobotArena.Proofs.World.Course
import RobotArena.Proofs.Arena.Course
import RobotArena.Proofs.External.Isolation
import RobotArena.Proofs.External.Panel
import RobotArena.Proofs.Machine.Panel
import RobotArena.Proofs.Machine.Isolation
import RobotArena.Proofs.Machine.Clicks
import RobotArena.Proofs.Memory.Fields
import RobotArena.Proofs.World.Isolation
import RobotArena.Proofs.World.Devices
import RobotArena.Proofs.World.Owners
import RobotArena.Proofs.Arena.Clicks
import RobotArena.Proofs.Assembly.Numerals
import RobotArena.Proofs.Assembly.Overflow
import RobotArena.Proofs.Assembly.Traces
import RobotArena.Proofs.Assembly.Origins
import RobotArena.Proofs.Assembly.Writing
import RobotArena.Proofs.Machine.Stopping
import RobotArena.Proofs.Machine.Tracing
import RobotArena.Proofs.Memory.Printing
import RobotArena.Proofs.Arena.Lines
import RobotArena.Proofs.World.Research
import RobotArena.Proofs.World.Turrets
import RobotArena.Proofs.World.Hits
import RobotArena.Proofs.World.Radar
import RobotArena.Proofs.Isa.Faithful
import RobotArena.Proofs.Machine.Epitaph
import RobotArena.Proofs.Arena.Epitaphs
import RobotArena.Proofs.Arena.Runs
import RobotArena.Proofs.World.Arithmetic
import RobotArena.Proofs.Arena.Arithmetic
import RobotArena.Proofs.Settings.Overrides
import RobotArena.Proofs.External.Registration
