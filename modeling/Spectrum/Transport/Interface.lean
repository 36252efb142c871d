import Mathlib.Data.List.Basic

/-! Status, baud rates and error codes shared by the transports (`transport/enum_`,
`utils/enum_/enum_errorcode.h`). -/
namespace Spectrum.Utils

inductive ErrorCode
  | generatorConnectionError
  | tcpConnectionFailure | tcpDataSendFailure | tcpInvalidAddress | tcpReceiveError
  | rs232ConnectionFailure | rs232ConfigurationFailure | rs232DataSendFailure
  | rs485ConnectionFailure | rs485ConfigurationFailure | rs485DataSendFailure
  | protocolError
  deriving DecidableEq, Repr

end Spectrum.Utils

namespace Spectrum.Transport

inductive TransportStatus
  | disconnected | connecting | connected | error
  deriving DecidableEq, Repr

inductive BaudRate
  | br4800 | br9600 | br19200 | br38400 | br57600 | br115200
  deriving DecidableEq, Repr

end Spectrum.Transport
