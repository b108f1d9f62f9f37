import Waterbox.Lib.Cut
import Waterbox.Lib.Runs
import Waterbox.Lib.Journal
import Waterbox.Lib.Clock
import Waterbox.Lib.Text
import Waterbox.Lib.Decimal
import Waterbox.Lib.Format
import Waterbox.Lib.Keys
import Waterbox.Lib.Calendar
import Waterbox.Lib.Json
import Waterbox.Lib.JsonNumbers
import Waterbox.Lib.Buckets
import Waterbox.Lib.Restarts
import Waterbox.Lib.Crc
import Waterbox.Lib.Elimination
import Waterbox.Lib.LeastSquares
import Waterbox.Firmware.Settings
import Waterbox.Firmware.Device
import Waterbox.Firmware.Machine
import Waterbox.Firmware.ConsumptionSignature
import Waterbox.Firmware.FlowMeter
import Waterbox.Firmware.LatchingValve
import Waterbox.Firmware.MeterStore
import Waterbox.Firmware.Sim800
import Waterbox.Firmware.PubSubClient
import Waterbox.Firmware.GsmMqttClient
import Waterbox.Firmware.WaterboxFsm
import Waterbox.Firmware.Stable
import Waterbox.Firmware.Rounds
import Waterbox.Firmware.Samples
import Waterbox.Firmware.Saves
import Waterbox.Firmware.Timers
import Waterbox.Firmware.Backoff
import Waterbox.Firmware.Single
import Waterbox.Firmware.Pulses
import Waterbox.Firmware.Volume
import Waterbox.Firmware.ValvePosition
import Waterbox.Firmware.Synced
import Waterbox.Firmware.Durable
import Waterbox.Firmware.Reboot
import Waterbox.Firmware.Session
import Waterbox.Firmware.Duty
import Waterbox.Firmware.Evaluation
import Waterbox.Firmware.Intervals
import Waterbox.Cloud.Python
import Waterbox.Cloud.Fingerprint
import Waterbox.Cloud.Database
import Waterbox.Cloud.Ingest
import Waterbox.Cloud.Exact
import Waterbox.Cloud.Merge
import Waterbox.Cloud.Records
import Waterbox.Cloud.Delivery
import Waterbox.Portal.Queries
import Waterbox.Portal.Curve
import Waterbox.Cloud.Failure
import Waterbox.Cloud.Passes
import Waterbox.Cloud.Marks
import Waterbox.Cloud.Retained
import Waterbox.Cloud.Finite
import Waterbox.Cloud.Flows
import Waterbox.Portal.Accounts
import Waterbox.Portal.Households
import Waterbox.Portal.Reports
import Waterbox.Firmware.Torn
import Waterbox.Cloud.Solver
import Waterbox.Cloud.BestFit
import Waterbox.Cloud.FewHours
import Waterbox.Portal.Leftovers
import Waterbox.Firmware.Arrivals
import Waterbox.Firmware.Commands
import Waterbox.Firmware.Coefficients
import Waterbox.Firmware.ModelText
import Waterbox.Firmware.PlainMessages
import Waterbox.Cloud.Singular
import Waterbox.Firmware.Corrupted
import Waterbox.Portal.Navigation
import Waterbox.Portal.MonthToDate
import Waterbox.Portal.OneMeter
import Waterbox.Cloud.Independence
import Waterbox.Lib.Framing
import Waterbox.Lib.Mqtt
import Waterbox.Firmware.Wire
import Waterbox.Firmware.Inbound
import Waterbox.Firmware.Packets
import Waterbox.Firmware.Outbound
import Waterbox.Lib.Blocks
import Waterbox.Firmware.TimeLib
import Waterbox.Lib.Gather
import Waterbox.Lib.Scan
import Waterbox.Firmware.SerialPort
import Waterbox.Firmware.Replies
import Waterbox.Cloud.DeviceClock
import Waterbox.Lib.Sphere
import Waterbox.Lib.Median
import Waterbox.Portal.Geography
import Waterbox.Cloud.Rounding
import Waterbox.Portal.SensorToMap
import Waterbox.Portal.Sessions
import Waterbox.Firmware.TcpSession
