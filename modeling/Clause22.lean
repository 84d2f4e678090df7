import Clause22.Bus.Faulty
import Clause22.Bus.Memory
import Clause22.Bus.Shared
import Clause22.Client
import Clause22.Device.Marvell88E1111
import Clause22.Lines.Gpio
import Clause22.Lines.Scripted
import Clause22.Lines.Stopwatch
import Clause22.Proofs.AbandonedBracket
import Clause22.Proofs.BankBracket
import Clause22.Proofs.BitOrder
import Clause22.Proofs.BuiltStorage
import Clause22.Proofs.BusDoubles
import Clause22.Proofs.CallHistory
import Clause22.Proofs.ClockPhases
import Clause22.Proofs.FaultCount
import Clause22.Proofs.FaultTruncation
import Clause22.Proofs.FieldLens
import Clause22.Proofs.FlatAddressSpace
import Clause22.Proofs.FrameAcceptance
import Clause22.Proofs.HandleResolution
import Clause22.Proofs.PackingLaws
import Clause22.Proofs.PinTransport
import Clause22.Proofs.RefusedRequests
import Clause22.Proofs.RegisterDump
import Clause22.Proofs.RegisterUpdate
import Clause22.Proofs.SharedTransactions
import Clause22.Proofs.TableLoading
import Clause22.Proofs.TurnaroundSample
