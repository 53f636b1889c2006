import Dmg.Bus.View
import Dmg.Machine.Run
import Dmg.Main
import Dmg.Runner.Report
import Dmg.Proofs.Advance
import Dmg.Proofs.CatchUp
import Dmg.Proofs.MemoryMap
import Dmg.Proofs.Action
import Dmg.Proofs.Moves
import Dmg.Proofs.InstructionMoves
import Dmg.Proofs.Phase
import Dmg.Proofs.Session
import Dmg.Proofs.ClockLock
import Dmg.Proofs.Shortfall
import Dmg.Proofs.InstructionShortfall
import Dmg.Proofs.FailureFrame
import Dmg.Proofs.Consulting
import Dmg.Proofs.InstructionReads
import Dmg.Proofs.OpcodeMap
import Dmg.Proofs.Banking
import Dmg.Proofs.CheckedAccess
import Dmg.Proofs.CartridgeHistory
import Dmg.Proofs.Requests
import Dmg.Proofs.StepStages
import Dmg.Proofs.Dispatch
import Dmg.Proofs.MasterEnable
import Dmg.Proofs.Steps
import Dmg.Proofs.Pace
import Dmg.Proofs.Halt
import Dmg.Proofs.RunLength
import Dmg.Proofs.RamHistory
import Dmg.Proofs.TransferCopy
import Dmg.Proofs.PushedWord
import Dmg.Proofs.ClockFrame
import Dmg.Proofs.HandlerReturn
import Dmg.Proofs.LostDisable
import Dmg.Proofs.FreshStart
import Dmg.Proofs.CommandRun
import Dmg.Proofs.Expiries
import Dmg.Proofs.CounterSum
import Dmg.Proofs.LineSum
import Dmg.Proofs.CounterRate
import Dmg.Proofs.ReservedBanks
import Dmg.Proofs.InstructionEffect
import Dmg.Proofs.InstructionCost
import Dmg.Proofs.InstructionFootprint
import Dmg.Proofs.ByteChain
import Dmg.Proofs.BinaryArithmetic
import Dmg.Proofs.DecimalArithmetic
import Dmg.Proofs.WordAddition
import Dmg.Proofs.MaskGrammar
import Dmg.Proofs.StackedWords
import Dmg.Proofs.NestedCalls
import Dmg.Proofs.ImageDefects
import Dmg.Proofs.Primitives
import Dmg.Proofs.RomExchange
import Dmg.Proofs.TrailingBytes
import Dmg.Proofs.ByteShifts
import Dmg.Proofs.ShiftedNumbers
import Dmg.Proofs.FlagByte
