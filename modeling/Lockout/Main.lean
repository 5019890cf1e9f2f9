import Lockout.Firmware
/-!
# The command line

Plays the demonstration boot and writes its log to standard error. What is shown can be asked for in the
environment, in `CIC_LOG`.
-/

def main : IO Unit := do
  let request ← IO.getEnv "CIC_LOG"
  for line in Lockout.Firmware.log request do
    IO.eprintln line
