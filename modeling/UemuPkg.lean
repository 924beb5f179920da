import UemuPkg.Base
import UemuPkg.Generic.Bytes
import UemuPkg.Generic.Cursor
import UemuPkg.Generic.Loop
import UemuPkg.Library.FdtLib
import UemuPkg.Library.UemuFdtLib.GetReg
import UemuPkg.Library.UemuFdtLib.RegTuples
import UemuPkg.Library.PlatformSecLib.Hob
import UemuPkg.Library.PlatformSecLib.Memory
import UemuPkg.Library.PlatformSecLib.SystemMemory
import UemuPkg.Library.PlatformSecLib.ReservedMemory
import UemuPkg.Library.PlatformSecLib.TempRam
import UemuPkg.Drivers.Bcm2835RngDxe.Model
import UemuPkg.Generic.Machine
import UemuPkg.Drivers.Bcm2835RngDxe.GetRNG
import UemuPkg.Generic.Calendar
import UemuPkg.Library.GoldfishRealTimeClockLib.Model
import UemuPkg.Library.GoldfishRealTimeClockLib.RoundTrip
import UemuPkg.Drivers.PlatformSmbiosDxe.Model
import UemuPkg.Drivers.PlatformSmbiosDxe.Record
import UemuPkg.Drivers.GoldfishEventsDxe.Model
import UemuPkg.Generic.Run
import UemuPkg.Drivers.GoldfishEventsDxe.KeyNotify
import UemuPkg.Drivers.GoldfishEventsDxe.ResetFraming
import UemuPkg.Generic.Align
import UemuPkg.Library.UemuFdtLib.AlignRange
import UemuPkg.Library.PlatformSecLib.Platform
import UemuPkg.Drivers.GoldfishEventsDxe.NotifyList
import UemuPkg.Generic.Lifetime
import UemuPkg.Drivers.GoldfishEventsDxe.HandleLifecycle
import UemuPkg.Drivers.GoldfishEventsDxe.DuplicateRegistration
import UemuPkg.Drivers.GoldfishEventsDxe.DispatchWalk
import UemuPkg.Drivers.GoldfishEventsDxe.ModifierKeys
import UemuPkg.Drivers.GoldfishEventsDxe.Keystrokes
import UemuPkg.Drivers.GoldfishEventsDxe.KeyStateAtRead
import UemuPkg.Drivers.GoldfishEventsDxe.EventFraming
import UemuPkg.Drivers.PlatformSmbiosDxe.MemoryInfo
import UemuPkg.Drivers.PlatformSmbiosDxe.MemoryRegions
import UemuPkg.Generic.Effects
import UemuPkg.Library.IoLib
import UemuPkg.Library.UemuFdtLib.MmioRange
import UemuPkg.Drivers.Bcm2835RngDxe.EntryPoint
import UemuPkg.Drivers.GoldfishBatteryDxe.Registers
import UemuPkg.Drivers.GoldfishEventsDxe.Registers
import UemuPkg.Library.GoldfishRealTimeClockLib.Registers
import UemuPkg.Drivers.RegisterAccess
import UemuPkg.Drivers.PlatformSmbiosDxe.QuickSort
import UemuPkg.Library.UemuFdtLib.FindCompatible
import UemuPkg.Library.UemuFdtLib.PageCover
import UemuPkg.Generic.Raster
import UemuPkg.Drivers.SimpleFbDxe.FrameBuffer
import UemuPkg.Drivers.Bcm2835RngDxe.Credit
import UemuPkg.Drivers.PlatformSmbiosDxe.RegBounds
import UemuPkg.Drivers.PlatformSmbiosDxe.MemoryRecords
import UemuPkg.Drivers.GoldfishEventsDxe.ScanCodes
import UemuPkg.Drivers.GoldfishEventsDxe.PollSignal
import UemuPkg.Drivers.GoldfishEventsDxe.WaitForKey
import UemuPkg.Drivers.PlatformSmbiosDxe.CpuFrequency
import UemuPkg.Drivers.PlatformSmbiosDxe.CoreCount
import UemuPkg.Library.GoldfishRealTimeClockLib.CounterOrder
import UemuPkg.Generic.KeyedList
import UemuPkg.Library.PlatformBootManagerLib.BootOptions
import UemuPkg.Drivers.PlatformSmbiosDxe.RecordBuffer
import UemuPkg.Drivers.GoldfishBatteryDxe.SmbiosRecord
import UemuPkg.Drivers.AccessOrder
import UemuPkg.Drivers.GoldfishEventsDxe.Initialize
import UemuPkg.Drivers.PlatformSmbiosDxe.EmulatorVersion
import UemuPkg.Drivers.PlatformSmbiosDxe.EntryPoint
import UemuPkg.Drivers.PlatformSmbiosDxe.RunRecords
import UemuPkg.Drivers.GoldfishEventsDxe.KeyMailboxes
import UemuPkg.Drivers.GoldfishEventsDxe.TypedText
import UemuPkg.Library.PlatformBootManagerLib.BeforeConsole
import UemuPkg.Library.PlatformBootManagerLib.ConnectOrder
import UemuPkg.Library.PlatformBootManagerLib.ConnectedDevices
import UemuPkg.Library.PlatformBootManagerLib.BootHistory
import UemuPkg.Drivers.BootHandoff
import UemuPkg.Library.GoldfishRealTimeClockLib.VirtualMode
import UemuPkg.Drivers.Bcm2835RngDxe.Requests
import UemuPkg.Drivers.DispatchOrder
import UemuPkg.Drivers.GoldfishEventsDxe.Linearization
import UemuPkg.Drivers.SimpleFbDxe.DisplayBlt
