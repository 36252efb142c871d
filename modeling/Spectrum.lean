import Spectrum.Foundation.Run
import Spectrum.Foundation.Refinement
import Spectrum.Foundation.Ledger
import Spectrum.Foundation.Delimited
import Spectrum.Foundation.Fifo
import Spectrum.Foundation.Checked
import Spectrum.Foundation.Reassembly
import Spectrum.Foundation.Rechunk
import Spectrum.Foundation.Strip
import Spectrum.Foundation.Prefix
import Spectrum.Utils.McbPortAddresses
import Spectrum.Utils.ResponseTranslator
import Spectrum.Protocols.McbKeyboard
import Spectrum.Protocols.Checksum
import Spectrum.Protocols.Layout
import Spectrum.Protocols.Safety
import Spectrum.Protocols.RoundTrip
import Spectrum.Protocols.Corruption
import Spectrum.Transport.Interface
import Spectrum.Transport.Network.Tcp
import Spectrum.Transport.Network.Send
import Spectrum.Transport.Network.Lifecycle
import Spectrum.Transport.Network.Idle
import Spectrum.Transport.Network.Receive
import Spectrum.Transport.Network.Endless
import Spectrum.Transport.Network.Threads
import Spectrum.Transport.Network.Places
import Spectrum.Transport.Network.Simulation
import Spectrum.Transport.Network.Interleaving
import Spectrum.Transport.Network.Descriptors
import Spectrum.Transport.Network.Handed
import Spectrum.Transport.Serial.Serial
import Spectrum.Transport.Serial.Leak
import Spectrum.Transport.Serial.Configured
import Spectrum.Transport.Contract
import Spectrum.Receiver.Awaiter
import Spectrum.Receiver.Dispatch
import Spectrum.Command.ICommand
import Spectrum.Command.Read
import Spectrum.Command.Write
import Spectrum.Command.Documented
import Spectrum.Command.DataHora
import Spectrum.Command.Requests
import Spectrum.Receiver.Handlers
import Spectrum.Controller.ProtocolController
import Spectrum.Controller.Acceptance
import Spectrum.Controller.Session
import Spectrum.Controller.SharedSocket
import Spectrum.Controller.Concurrent
import Spectrum.Controller.Outgoing
import Spectrum.Controller.VersaoFirmware
import Spectrum.Tests.TestAllCommands
import Spectrum.Tests.Stream
import Spectrum.Tests.Window
import Spectrum.Tests.Recovery
import Spectrum.Tests.SendMcb
import Spectrum.Tests.TesteEsteira
import Spectrum.Tests.Agreement
import Spectrum.Tests.McbTest
import Spectrum.Tests.Outcome
import Spectrum.Tests.Printed
import Spectrum.Controller.Delivery
import Spectrum.Controller.Recovery
