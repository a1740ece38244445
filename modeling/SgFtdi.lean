import SgFtdi.Bus.Calls
import SgFtdi.Bus.Description
import SgFtdi.Bus.Model
import SgFtdi.Bus.Opening
import SgFtdi.Bus.Search
import SgFtdi.Common.Cells
import SgFtdi.Common.Chunks
import SgFtdi.Common.Concurrency
import SgFtdi.Common.Containers
import SgFtdi.Common.Memory
import SgFtdi.Common.Numeral
import SgFtdi.Common.Prog
import SgFtdi.Common.Record
import SgFtdi.Common.Trail
import SgFtdi.Context.Configuring
import SgFtdi.Context.DeviceStrings
import SgFtdi.Context.Model
import SgFtdi.Context.Ownership
import SgFtdi.Context.Selection
import SgFtdi.Context.Strings
import SgFtdi.Eeprom.Build
import SgFtdi.Eeprom.Checksum
import SgFtdi.Eeprom.Damage
import SgFtdi.Eeprom.Decode
import SgFtdi.Eeprom.Defaults
import SgFtdi.Eeprom.Device
import SgFtdi.Eeprom.Fields
import SgFtdi.Eeprom.Layout
import SgFtdi.Eeprom.Locations
import SgFtdi.Eeprom.Model
import SgFtdi.Eeprom.Persistence
import SgFtdi.Eeprom.RoundTrip
import SgFtdi.Ftdi.Baudrate
import SgFtdi.Ftdi.Calls
import SgFtdi.Ftdi.Data
import SgFtdi.Ftdi.Payload
import SgFtdi.Ftdi.ReadRuns
import SgFtdi.Ftdi.ReadStream
import SgFtdi.Ftdi.Reading
import SgFtdi.Ftdi.Tolerance
import SgFtdi.Ftdi.WriteStream
import SgFtdi.Stream.Confirming
import SgFtdi.Stream.Construct
import SgFtdi.Stream.Counters
import SgFtdi.Stream.Deadlock
import SgFtdi.Stream.Denying
import SgFtdi.Stream.Failing
import SgFtdi.Stream.Inactivity
import SgFtdi.Stream.Landing
import SgFtdi.Stream.LastRequest
import SgFtdi.Stream.LifeCycle
import SgFtdi.Stream.Model.Engine
import SgFtdi.Stream.Model.Machine
import SgFtdi.Stream.Model.Requests
import SgFtdi.Stream.Model.Session
import SgFtdi.Stream.Model.Steady
import SgFtdi.Stream.Model.Threads
import SgFtdi.Stream.Model.Traffic
import SgFtdi.Stream.Model.Transfers
import SgFtdi.Stream.Model.Types
import SgFtdi.Stream.Model.UsbContext
import SgFtdi.Stream.Modes
import SgFtdi.Stream.Moves.Calls
import SgFtdi.Stream.Moves.Cleanup
import SgFtdi.Stream.Moves.Completion
import SgFtdi.Stream.Moves.Drain
import SgFtdi.Stream.Moves.Engine
import SgFtdi.Stream.Moves.Flight
import SgFtdi.Stream.Moves.Held
import SgFtdi.Stream.Moves.Life
import SgFtdi.Stream.Moves.Log
import SgFtdi.Stream.Moves.Move
import SgFtdi.Stream.Moves.Outline
import SgFtdi.Stream.Moves.Quiet
import SgFtdi.Stream.Moves.Reasons
import SgFtdi.Stream.Moves.Registrations
import SgFtdi.Stream.Moves.Setup
import SgFtdi.Stream.Moves.Standing
import SgFtdi.Stream.Moves.Upkeep
import SgFtdi.Stream.Moves.Work
import SgFtdi.Stream.Notice
import SgFtdi.Stream.Notifiers
import SgFtdi.Stream.PacketLoop
import SgFtdi.Stream.Pausing
import SgFtdi.Stream.Quiescence
import SgFtdi.Stream.Reading
import SgFtdi.Stream.Refusing
import SgFtdi.Stream.Release
import SgFtdi.Stream.Routing
import SgFtdi.Stream.Shutdown
import SgFtdi.Stream.Silence
import SgFtdi.Stream.Sizes
import SgFtdi.Stream.Starting
import SgFtdi.Stream.Stopping
import SgFtdi.Stream.Stranding
import SgFtdi.Stream.Submissions
import SgFtdi.Stream.TransferState
import SgFtdi.Stream.Writing
