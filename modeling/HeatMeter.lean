import HeatMeter.Channels
import HeatMeter.Clock
import HeatMeter.Compressor
import HeatMeter.Configuration
import HeatMeter.Configuration.Coercion
import HeatMeter.Configuration.Path
import HeatMeter.Configuration.Sources
import HeatMeter.Cop.Quality
import HeatMeter.Cop.Sample
import HeatMeter.Cop.Sensor
import HeatMeter.Cop.Window
import HeatMeter.Data.Basic
import HeatMeter.Data.Log
import HeatMeter.Data.Reading
import HeatMeter.Data.Snapshot
import HeatMeter.Data.Summary
import HeatMeter.Decimal.Layout
import HeatMeter.Decimal.Read
import HeatMeter.Decimal.Shortest
import HeatMeter.Defrost
import HeatMeter.Disk
import HeatMeter.Failure
import HeatMeter.Heat
import HeatMeter.Json
import HeatMeter.Json.Decode
import HeatMeter.Json.Printer
import HeatMeter.Json.Reader
import HeatMeter.Json.Shape
import HeatMeter.Json.Strings
import HeatMeter.Keyed
import HeatMeter.Main
import HeatMeter.Meter
import HeatMeter.Mode
import HeatMeter.Power
import HeatMeter.Program
import HeatMeter.Proofs.Channels
import HeatMeter.Proofs.Channels.Shown
import HeatMeter.Proofs.Clock
import HeatMeter.Proofs.Clock.Forward
import HeatMeter.Proofs.Clock.Readings
import HeatMeter.Proofs.Compressor
import HeatMeter.Proofs.Compressor.Backed
import HeatMeter.Proofs.Compressor.Load
import HeatMeter.Proofs.Cop.Backfill
import HeatMeter.Proofs.Cop.Batches
import HeatMeter.Proofs.Cop.Gate
import HeatMeter.Proofs.Cop.Mean
import HeatMeter.Proofs.Cop.Order
import HeatMeter.Proofs.Cop.Reliability
import HeatMeter.Proofs.Cop.Restart
import HeatMeter.Proofs.Cop.Retention
import HeatMeter.Proofs.Cop.Sensor
import HeatMeter.Proofs.Cop.Shift
import HeatMeter.Proofs.Cop.Spacing
import HeatMeter.Proofs.Cop.Window
import HeatMeter.Proofs.Data.Log
import HeatMeter.Proofs.Data.Reading
import HeatMeter.Proofs.Data.Snapshot
import HeatMeter.Proofs.Decimal.DataText
import HeatMeter.Proofs.Decimal.Shortest
import HeatMeter.Proofs.Decimal.ToFloat
import HeatMeter.Proofs.Defrost.Recovery
import HeatMeter.Proofs.Defrost.Trace
import HeatMeter.Proofs.Disk
import HeatMeter.Proofs.Front
import HeatMeter.Proofs.Heat.Counted
import HeatMeter.Proofs.Heat.Energy
import HeatMeter.Proofs.Heat.Growth
import HeatMeter.Proofs.Heat.Live
import HeatMeter.Proofs.Heat.Lock
import HeatMeter.Proofs.Heat.Restored
import HeatMeter.Proofs.Json.Integers
import HeatMeter.Proofs.Json.Line
import HeatMeter.Proofs.Json.Number
import HeatMeter.Proofs.Json.Records
import HeatMeter.Proofs.Json.RoundTrip
import HeatMeter.Proofs.Json.Strings
import HeatMeter.Proofs.Meter.Compressor
import HeatMeter.Proofs.Meter.Frozen
import HeatMeter.Proofs.Meter.HeatOnly
import HeatMeter.Proofs.Meter.Isolation
import HeatMeter.Proofs.Meter.Run
import HeatMeter.Proofs.Meter.Saved
import HeatMeter.Proofs.Meter.Shift
import HeatMeter.Proofs.Mode
import HeatMeter.Proofs.Program
import HeatMeter.Proofs.Queue
import HeatMeter.Proofs.Queue.Fifo
import HeatMeter.Proofs.Record
import HeatMeter.Proofs.Replay
import HeatMeter.Proofs.Scalar.Float
import HeatMeter.Proofs.Scalar.Nearest
import HeatMeter.Proofs.Scalar.Operations
import HeatMeter.Proofs.Scalar.Order
import HeatMeter.Proofs.Scalar.Rounding
import HeatMeter.Proofs.Settings
import HeatMeter.Proofs.Settings.Bounds
import HeatMeter.Proofs.Text.Blank
import HeatMeter.Proofs.Text.Digits
import HeatMeter.Proofs.Text.Utf8
import HeatMeter.Proofs.Time.Calendar
import HeatMeter.Proofs.Time.Instant
import HeatMeter.Proofs.Time.Shift
import HeatMeter.Proofs.Time.Text
import HeatMeter.Queue
import HeatMeter.Reading
import HeatMeter.Record
import HeatMeter.Replay
import HeatMeter.Scalar
import HeatMeter.Scalar.Whole
import HeatMeter.Settings
import HeatMeter.Settings.Check
import HeatMeter.Settings.Form
import HeatMeter.Text.Blank
import HeatMeter.Text.Digits
import HeatMeter.Text.Utf8
import HeatMeter.Time.Calendar
import HeatMeter.Time.Duration
import HeatMeter.Time.Instant
import HeatMeter.Time.Text
import HeatMeter.Toml.Document
import HeatMeter.Toml.Reader
import HeatMeter.Toml.Scalar
import HeatMeter.Toml.Strings
import HeatMeter.Toml.Value
