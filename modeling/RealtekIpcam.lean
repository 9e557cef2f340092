import RealtekIpcam.Udc.InterruptIn
import RealtekIpcam.Udc.Ownership
import RealtekIpcam.Udc.ControlIsolation
import RealtekIpcam.Udc.Address
import RealtekIpcam.Udc.HeaderLength
import RealtekIpcam.Udc.FifoOwners
import RealtekIpcam.Udc.PacketSize
import RealtekIpcam.Uboot.EnvSerial
import RealtekIpcam.Uboot.EnvFrame
import RealtekIpcam.Uboot.WritersAgree
import RealtekIpcam.Uboot.UpdateFailure
import RealtekIpcam.Uboot.LoadExact
import RealtekIpcam.Uboot.MemmoveWd
import RealtekIpcam.Uboot.FdtExtents
import RealtekIpcam.Uboot.Bootargs
import RealtekIpcam.Uboot.BootInterrupts
import RealtekIpcam.Uboot.GpioLevels
import RealtekIpcam.Uboot.GpioListUnwinding
import RealtekIpcam.Uboot.PhandleListWalk
import RealtekIpcam.Uboot.MemoryBankOrder
import RealtekIpcam.Uboot.AliasListOrder
import RealtekIpcam.Uboot.CarveoutRuns
import RealtekIpcam.Pinctrl.GroupConfig
import RealtekIpcam.Pinctrl.PadMux
import RealtekIpcam.Pinctrl.IrqDemux
import RealtekIpcam.Pinctrl.GpioOutput
import RealtekIpcam.Pinctrl.SelectState
import RealtekIpcam.Pinctrl.CreateHandle
import RealtekIpcam.I2c.SlaveEvents
import RealtekIpcam.Spi.Transfer
import RealtekIpcam.Rtc.RtsAlarm
import RealtekIpcam.Spi.Clock
import RealtekIpcam.Watchdog.Sessions
import RealtekIpcam.Plic.Completion
import RealtekIpcam.Ehci.MapFailure
import RealtekIpcam.Udc.StartStop
import RealtekIpcam.Composite.DelayedStatus
import RealtekIpcam.Composite.Activation
import RealtekIpcam.Opensbi.Ecall
import RealtekIpcam.Pwm.Channels
import RealtekIpcam.Pwm.Accuracy
import RealtekIpcam.Gpiolib.SysfsRuns
import RealtekIpcam.Gpiolib.ArrayDefects
import RealtekIpcam.Gpiolib.LineOwners
import RealtekIpcam.Serial.Slots
import RealtekIpcam.Serial.Transmit
import RealtekIpcam.Serial.Receive
import RealtekIpcam.Serial.Divisor
import RealtekIpcam.Uboot.EnvLocation
import RealtekIpcam.Uboot.Partitions
import RealtekIpcam.Thermal.Window
import RealtekIpcam.Thermal.Divisor
import RealtekIpcam.Thermal.Conversion
import RealtekIpcam.Bus.Xb2
import RealtekIpcam.Serial.IrqChain
import RealtekIpcam.Serial.SharedInterrupt
import RealtekIpcam.Composite.ConfigIndex
import RealtekIpcam.Composite.ShortResponse
import RealtekIpcam.Gadget.LoopbackRuns
import RealtekIpcam.Composite.OsDescHeaders
import RealtekIpcam.I2c.Eeprom
import RealtekIpcam.I2c.Timings
import RealtekIpcam.I2c.BlockRead
import RealtekIpcam.Rtc.SetTime
import RealtekIpcam.Rtc.AlarmRollover
import RealtekIpcam.Rtc.TimerWork
import RealtekIpcam.Riscv.SwitchTo
import RealtekIpcam.Riscv.TrapRuns
import RealtekIpcam.Uboot.ReserveMemory
