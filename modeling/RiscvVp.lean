import RiscvVp.Ahb.Consistency
import RiscvVp.Amo.Faults
import RiscvVp.Bits.Lanes
import RiscvVp.Bits.Mask
import RiscvVp.Bits.Product
import RiscvVp.Cipher.Padding
import RiscvVp.Core.DecodeTable
import RiscvVp.Core.PageWalk
import RiscvVp.Core.TlbTransparency
import RiscvVp.Cores.MinMax
import RiscvVp.Cores.MulDiv
import RiscvVp.Device.Clint
import RiscvVp.Device.ClintTime
import RiscvVp.Device.ClintTimer
import RiscvVp.Device.RealClint
import RiscvVp.Device.RealClintTicks
import RiscvVp.Device.Slip
import RiscvVp.Device.Table
import RiscvVp.Fe310Plic.Eip
import RiscvVp.Fe310Plic.PerHart
import RiscvVp.Fu540Plic.Lines
import RiscvVp.Gdb.AllStop
import RiscvVp.Gdb.DebugMemory
import RiscvVp.Gdb.OrderlySessions
import RiscvVp.Gdb.Robustness
import RiscvVp.Gdb.Tagging
import RiscvVp.Gpio.Channels
import RiscvVp.Gpio.Output
import RiscvVp.Interaction.Conduct
import RiscvVp.Interaction.Triple
import RiscvVp.Rv32.AmoFault
import RiscvVp.Rv32.BoundedReservation
import RiscvVp.Rv32.CsrLegality
import RiscvVp.Rv32.Delegation
import RiscvVp.Rv32.FaultReport
import RiscvVp.Rv32.Hazards
import RiscvVp.Rv32.Interrupts
import RiscvVp.Rv32.LegalLevels
import RiscvVp.Rv32.PcAlignment
import RiscvVp.Rv32.Privilege
import RiscvVp.Rv32.RoundTrip
import RiscvVp.Rv64.AmoFault
import RiscvVp.Rv64.Satp
import RiscvVp.Sm3.Driver
import RiscvVp.Sm3.Message
import RiscvVp.Sm3.MessagePadding
import RiscvVp.Sm4.Driver
import RiscvVp.Sm4.Freshness
import RiscvVp.Sm4.NiceFlow
import RiscvVp.Uart.Console
import RiscvVp.Elf.Heap
import RiscvVp.Elf.Loader
import RiscvVp.Rv32.InstrCache
import RiscvVp.Device.RegisterBank
import RiscvVp.Uart.Watermark
import RiscvVp.Uart.FifoSafety
import RiscvVp.Dma.Transfer
import RiscvVp.Host.Isolation
import RiscvVp.Rv32.LocalTime
import RiscvVp.Rv32.Alterations
import RiscvVp.Rv32.PreciseTraps
import RiscvVp.Device.FlashArray
import RiscvVp.Gpio.Interrupts
import RiscvVp.Oled.Sh1106
import RiscvVp.Oled.FrameBounds
import RiscvVp.Can.Mcp2515
import RiscvVp.Can.Commands
import RiscvVp.Can.Identifiers
import RiscvVp.Can.Fidelity
import RiscvVp.Gdb.Packets
import RiscvVp.Gdb.PacketRoundTrip
import RiscvVp.Gdb.ThreadIds
import RiscvVp.Gdb.Buffers
import RiscvVp.Gdb.Encodings
import RiscvVp.Framing.Link
import RiscvVp.Gpio.Messages
import RiscvVp.Gpio.Connection
import RiscvVp.Gpio.WholeReads
import RiscvVp.Core.TlbFills
import RiscvVp.Rv32.Translations
import RiscvVp.Gdb.Board
import RiscvVp.Gdb.Readings
import RiscvVp.Gdb.Inspection
import RiscvVp.Spi.Channel
import RiscvVp.Spi.CanFrames
import RiscvVp.NvMain.Channels
import RiscvVp.Rv32.BranchPredictor
