import Unwinding.Proofs.Memory.Contents
import Unwinding.Proofs.Memory.Pointers
import Unwinding.Proofs.Pad.Assembly
import Unwinding.Proofs.Pad.Cause
import Unwinding.Proofs.Pad.History
import Unwinding.Proofs.Pad.Ownership
import Unwinding.Proofs.Record.Fields
import Unwinding.Proofs.Record.Persistence
import Unwinding.Proofs.Record.Straddling
import Unwinding.Proofs.Trace.Decoding
import Unwinding.Proofs.Trace.Log
import Unwinding.Proofs.Trace.Relay
import Unwinding.Proofs.Trace.Sharing
import Unwinding.Proofs.Trace.Window
import Unwinding.Proofs.TypeGraph.Worklist
import Unwinding.Session.Run
