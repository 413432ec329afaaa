import Chip8.Main
import Chip8.Proofs.Bank
import Chip8.Proofs.Mirror
import Chip8.Proofs.Request
import Chip8.Proofs.FirstState
import Chip8.Proofs.Sound
import Chip8.Proofs.Turn
import Chip8.Proofs.Press
import Chip8.Proofs.Invariant
import Chip8.Proofs.Effect
import Chip8.Proofs.Decoding
import Chip8.Proofs.Fault
import Chip8.Proofs.AwaitKey
import Chip8.Proofs.Footprint
import Chip8.Proofs.Countdown
import Chip8.Proofs.Return
import Chip8.Proofs.Picture
import Chip8.Proofs.Parity
import Chip8.Proofs.Canvas
import Chip8.Proofs.Frames
import Chip8.Proofs.Twin
import Chip8.Proofs.Load
import Chip8.Proofs.Upkeep
import Chip8.Proofs.Journal
import Chip8.Proofs.Moment
import Chip8.Proofs.Ticks
import Chip8.Proofs.Passes
import Chip8.Proofs.Console
import Chip8.Proofs.Buzzer
import Chip8.Proofs.Pace
import Chip8.Proofs.Plugins
import Chip8.Proofs.Screens
import Chip8.Proofs.Release
import Chip8.Proofs.Rate
import Chip8.Proofs.KeyHistory
import Chip8.Proofs.HostKeys
import Chip8.Proofs.Decimal
import Chip8.Proofs.Keymap
import Chip8.Proofs.Order
import Chip8.Proofs.Playback
import Chip8.Proofs.Hex
import Chip8.Proofs.CrashReport
import Chip8.Proofs.Unread
import Chip8.Proofs.Mnemonic
import Chip8.Proofs.Tracing
import Chip8.Proofs.Reports
import Chip8.Proofs.Flips
import Chip8.Proofs.Sprite
import Chip8.Proofs.DrawOrder
import Chip8.Proofs.BadPitch
import Chip8.Proofs.Numeral
import Chip8.Proofs.Colours
import Chip8.Proofs.Grammar
import Chip8.Proofs.Flags
import Chip8.Proofs.Transfer
import Chip8.Proofs.Access
