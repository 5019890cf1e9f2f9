import Lockout.Bench.Marathon
import Lockout.Cipher.Challenge
import Lockout.Firmware
import Lockout.Hardware.Board
import Lockout.Kernel.Program
import Lockout.Kernel.Stack
import Lockout.Main
import Lockout.Polling.Tape
import Lockout.Proofs.Bench.Agreement
import Lockout.Proofs.Bench.FreshStart
import Lockout.Proofs.Bench.ResetLow
import Lockout.Proofs.Polling.Held
import Lockout.Proofs.Polling.Leftover
import Lockout.Proofs.Session.Transcript
import Lockout.Proofs.Task.Delivery
import Lockout.Proofs.Task.Window
import Lockout.Session.Rehearsal
import Lockout.Task.Drill
import Lockout.Proofs.Session.Chatter
import Lockout.Proofs.Session.Parts
import Lockout.Proofs.Session.FailStop
import Lockout.Proofs.Session.Panel
import Lockout.Proofs.Session.Flips
import Lockout.Proofs.Session.Timeout
import Lockout.Proofs.Polling.Timeout
import Lockout.Proofs.Task.Timeout
import Lockout.Proofs.Bench.RegionFlips
import Lockout.Proofs.Polling.Watched
import Lockout.Proofs.Polling.Yield
import Lockout.Proofs.Task.Watched
import Lockout.Proofs.Task.Yield
import Lockout.Proofs.Bench.Yield
import Lockout.Proofs.Cipher.Unroll
import Lockout.Proofs.Session.BootCode
import Lockout.Proofs.Task.Ended
import Lockout.Proofs.Session.NoAbort
import Lockout.Proofs.Bench.OneIdentity
import Lockout.Proofs.Polling.Upheld
import Lockout.Proofs.Cipher.KeyWalk
import Lockout.Proofs.Kernel.Selection
import Lockout.Proofs.Kernel.Pending
import Lockout.Proofs.Kernel.Threads
import Lockout.Proofs.Cipher.Recover
import Lockout.Proofs.Cipher.Passes
import Lockout.Proofs.Handoff.History
import Lockout.Proofs.Kernel.Tables
import Lockout.Proofs.Polling.Deadline
import Lockout.Proofs.Kernel.Depth
import Lockout.Proofs.Task.Expiry
import Lockout.Proofs.Bench.Timer
import Lockout.Proofs.CommandWords
import Lockout.Proofs.Hardware.RegionKept
import Lockout.Proofs.Cipher.ClosedForm
import Lockout.Proofs.Bench.Framing
