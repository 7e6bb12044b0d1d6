import Chip8Launcher.Config.Basic
import Chip8Launcher.Config.Fault
import Chip8Launcher.Config.OfText
import Chip8Launcher.Config.OfValue
import Chip8Launcher.Config.Record
import Chip8Launcher.Decimal.Layout
import Chip8Launcher.Decimal.Shortest
import Chip8Launcher.Display.Basic
import Chip8Launcher.Display.Framebuffer
import Chip8Launcher.Failure
import Chip8Launcher.Hex
import Chip8Launcher.Image
import Chip8Launcher.Json.Numeral
import Chip8Launcher.Json.Text
import Chip8Launcher.Json.Token
import Chip8Launcher.Loader
import Chip8Launcher.Log
import Chip8Launcher.Page.Act
import Chip8Launcher.Page.Basic
import Chip8Launcher.Page.Count
import Chip8Launcher.Page.Drain
import Chip8Launcher.Page.Task
import Chip8Launcher.Page.Turn
import Chip8Launcher.Page.Value
import Chip8Launcher.Session.Basic
import Chip8Launcher.Session.Boot
import Chip8Launcher.Session.Cell
import Chip8Launcher.Session.Report
import Chip8Launcher.Text.GraphemeExtend
import Chip8Launcher.Text.Quoted
import Chip8Launcher.Text.Unprintable
import Chip8Launcher.Proofs.Loader.Stages
import Chip8Launcher.Proofs.Session.Moves
import Chip8Launcher.Proofs.Session.Sound
import Chip8Launcher.Proofs.Session.OneShot
import Chip8Launcher.Proofs.Session.Account
import Chip8Launcher.Proofs.Session.Ownership
import Chip8Launcher.Proofs.Session.History
import Chip8Launcher.Proofs.Session.FirstPolls
import Chip8Launcher.Proofs.Session.Independence
import Chip8Launcher.Proofs.Session.Sequential
import Chip8Launcher.Proofs.Page.Calm
import Chip8Launcher.Proofs.Page.Polls
import Chip8Launcher.Proofs.Page.Start
import Chip8Launcher.Proofs.Page.EndToEnd
import Chip8Launcher.Proofs.Config.OfText
import Chip8Launcher.Proofs.Json.Extending
import Chip8Launcher.Proofs.Config.FirstProblem
import Chip8Launcher.Proofs.Display.Painting
import Chip8Launcher.Proofs.Session.Blank
import Chip8Launcher.Proofs.Page.Checks
import Chip8Launcher.Proofs.Session.Balance
import Chip8Launcher.Proofs.Session.Cancelling
import Chip8Launcher.Proofs.Session.Journal
import Chip8Launcher.Proofs.Page.Handling
import Chip8Launcher.Proofs.Page.Interference
import Chip8Launcher.Proofs.Text.Joined
import Chip8Launcher.Proofs.Display.Picture
import Chip8Launcher.Proofs.Image.Digits
import Chip8Launcher.Proofs.Image.Dump
import Chip8Launcher.Proofs.Session.Borrowing
import Chip8Launcher.Proofs.Session.Rollback
import Chip8Launcher.Proofs.Display.Overlap
import Chip8Launcher.Proofs.Image.Truncated
import Chip8Launcher.Proofs.Json.Decimals
import Chip8Launcher.Proofs.Config.Around
import Chip8Launcher.Proofs.Config.Sizes
import Chip8Launcher.Proofs.Config.Writing
import Chip8Launcher.Proofs.Image.Capacity
import Chip8Launcher.Proofs.Failure.Messages
import Chip8Launcher.Proofs.Page.Threshold
