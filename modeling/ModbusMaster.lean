import ModbusMaster.Document.Json
import ModbusMaster.Main
import ModbusMaster.Proofs.Equipment.Simulation
import ModbusMaster.Proofs.Tcp.Correlation
import ModbusMaster.Proofs.Tcp.RateLimit
import ModbusMaster.Records
import ModbusMaster.Simulation.Buses
import ModbusMaster.Simulation.Terminal
import ModbusMaster.Proofs.Action.Calls
import ModbusMaster.Proofs.Tcp.Delivery
import ModbusMaster.Proofs.Tcp.Responder
import ModbusMaster.Proofs.Engine.Exchange
import ModbusMaster.Proofs.Cache.Cells
import ModbusMaster.Proofs.Cache.Polling
import ModbusMaster.Proofs.Cache.Reading
import ModbusMaster.Proofs.Device.Validation
import ModbusMaster.Proofs.Frame.RoundTrip
import ModbusMaster.Proofs.Cache.Commands
import ModbusMaster.Proofs.Engine.Turns
import ModbusMaster.Proofs.Engine.Callers
import ModbusMaster.Proofs.Engine.Strokes
import ModbusMaster.Proofs.Engine.Exclusion
import ModbusMaster.Proofs.Serial.Agreement
import ModbusMaster.Proofs.Serial.Freshness
import ModbusMaster.Proofs.Engine.Status
import ModbusMaster.Proofs.Engine.Attribution
import ModbusMaster.Proofs.Engine.Acceptance
import ModbusMaster.Proofs.Device.Repetition
import ModbusMaster.Proofs.Device.Writing
import ModbusMaster.Proofs.Text.Hexadecimal
import ModbusMaster.Proofs.Serial.Diagnosis
import ModbusMaster.Proofs.Cache.Descriptor
import ModbusMaster.Proofs.Cache.Succession
import ModbusMaster.Proofs.Cache.Warmth
import ModbusMaster.Proofs.Device.Building
import ModbusMaster.Proofs.Engine.Sending
import ModbusMaster.Proofs.Client.Writing
import ModbusMaster.Proofs.Serial.Reader
import ModbusMaster.Proofs.Bits.Access
