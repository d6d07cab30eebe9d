import ScriptHost.Batch
import ScriptHost.Bean.Json
import ScriptHost.Bridge.Standard
import ScriptHost.Json.Reading
import ScriptHost.Projection.Native
import ScriptHost.Proofs.Backtraces
import ScriptHost.Proofs.BatchCalls
import ScriptHost.Proofs.BridgeTexts
import ScriptHost.Proofs.DirectCalls
import ScriptHost.Proofs.Encoding
import ScriptHost.Proofs.Histories
import ScriptHost.Proofs.Logging
import ScriptHost.Proofs.ObjectTexts
import ScriptHost.Proofs.Projections
import ScriptHost.Proofs.Provenance
import ScriptHost.Proofs.Serialization
import ScriptHost.Proofs.Session
import ScriptHost.Proofs.SharedCells
import ScriptHost.Proofs.TypedProjection
import ScriptHost.Proofs.NativeProjection
import ScriptHost.Proofs.Binding
import ScriptHost.Proofs.StandardFunctions
import ScriptHost.Proofs.CalendarScripts
import ScriptHost.Proofs.Places
import ScriptHost.Proofs.Termination
import ScriptHost.Proofs.NormalForms
import ScriptHost.Proofs.Serialization.Frames
import ScriptHost.Proofs.TypedLeaves
import ScriptHost.Proofs.BeanFaults
import ScriptHost.Proofs.Registration
import ScriptHost.Proofs.BigArithmetic
import ScriptHost.Proofs.BatchNames
import ScriptHost.Proofs.Signatures
import ScriptHost.Proofs.Equality
