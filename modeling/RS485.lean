import RS485.BusRelease
import RS485.DirCoverage
import RS485.MoveTransparency
import RS485.ConfigHome
import RS485.ValueLink
import RS485.PendingInput
import RS485.BeginGuard
import RS485.TxRing
import RS485.ReadTimeout
import RS485.ReadValue
import RS485.WaitingWrites
import RS485.FakeSerial
import RS485.Link
import RS485.Chunked
import RS485.Wiring
import RS485.Waits
import RS485.Separation
import RS485.PortOutput
import RS485.PortInput
import RS485.Talk
