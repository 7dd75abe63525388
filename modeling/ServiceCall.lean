import ServiceCall.ThreadProofs
import ServiceCall.HeapProofs
import ServiceCall.ClientIdProofs
import ServiceCall.SharingProofs
import ServiceCall.AccessProofs
import ServiceCall.UnregisterProofs
import ServiceCall.SequentialProofs
import ServiceCall.BufferProofs
import ServiceCall.WriteBackProofs
import ServiceCall.CaptureProofs
import ServiceCall.RegisterProofs
import ServiceCall.FootprintProofs
import ServiceCall.IterationProofs
import ServiceCall.WorkerProofs
import ServiceCall.DispatchProofs
import ServiceCall.AddressProofs
import ServiceCall.MachineProofs
import ServiceCall.ThunkProofs
import ServiceCall.StdcallProofs
import ServiceCall.GrammarProofs
import ServiceCall.ProbeProofs
import ServiceCall.CloseEventProofs
import ServiceCall.StringProofs
import ServiceCall.OutcomeProofs
import ServiceCall.ReleaseProofs
import ServiceCall.RetypeProofs
import ServiceCall.QuiesceProofs
import ServiceCall.ValueResultProofs
import ServiceCall.AnswerProofs
import ServiceCall.InitializeProofs
import ServiceCall.HandleProofs
import ServiceCall.CallProofs
import ServiceCall.PairingProofs
import ServiceCall.PortProofs
