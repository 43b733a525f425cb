import LightControlMonitor.Lms.Replies
import LightControlMonitor.Lms.Detection
import LightControlMonitor.Eeprom.Damage
import LightControlMonitor.Adc.Calibration
import LightControlMonitor.Adc.Station
import LightControlMonitor.Lms.Submitters
import LightControlMonitor.Lms.Layout
import LightControlMonitor.Lms.Burst
import LightControlMonitor.Pulse.Ticks
import LightControlMonitor.Pulse.Uptime
import LightControlMonitor.Pulse.Startup
import LightControlMonitor.Pulse.Width
import LightControlMonitor.Hmi.Convergence
import LightControlMonitor.Hmi.Menu
import LightControlMonitor.Hmi.Readings
import LightControlMonitor.Can.LightLevel
import LightControlMonitor.Can.Receive
import LightControlMonitor.Can.Clock
import LightControlMonitor.Can.Network
import LightControlMonitor.Can.Replies
import LightControlMonitor.Eeprom.SysParam
import LightControlMonitor.Can.Filter
import LightControlMonitor.Can.Mailbox
import LightControlMonitor.Shell.Commands
import LightControlMonitor.Io.FailedRead
import LightControlMonitor.Ups.Poll
import LightControlMonitor.Rs485.Receive
import LightControlMonitor.Oled.CharNumber
import LightControlMonitor.Oled.Decimal
import LightControlMonitor.Oled.Delay
import LightControlMonitor.Pulse.Delays
import LightControlMonitor.Shell.Numerals
import LightControlMonitor.MultiButton.Handler
import LightControlMonitor.MultiButton.Clicks
import LightControlMonitor.Lib.Chain
import LightControlMonitor.MultiButton.WorkList
import LightControlMonitor.MultiButton.Keys
import LightControlMonitor.Lib.RingBuffer
import LightControlMonitor.Kernel.Mailbox
import LightControlMonitor.Kernel.SerialFifo
import LightControlMonitor.Kernel.RtList
import LightControlMonitor.Kernel.CanFifo
import LightControlMonitor.Modbus.Codec
import LightControlMonitor.Modbus.Frames
import LightControlMonitor.Ups.Registers
import LightControlMonitor.Kernel.Semaphore
import LightControlMonitor.Kernel.CanSend
import LightControlMonitor.Kernel.CanWrites
import LightControlMonitor.Lib.ShiftRegister
import LightControlMonitor.Oled.Wire
import LightControlMonitor.Oled.Panel
import LightControlMonitor.Hmi.Picture
import LightControlMonitor.Lib.Alarms
import LightControlMonitor.Kernel.Timer
import LightControlMonitor.Kernel.PeriodicTimer
import LightControlMonitor.Kernel.Scheduler
import LightControlMonitor.Kernel.ReadyLists
import LightControlMonitor.Kernel.Turns
