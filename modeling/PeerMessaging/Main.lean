import PeerMessaging.Cli.Command
/-!
The command-line entry: reads the arguments, runs the validation of `Cli.run`, and writes its
output and status. Discovery and the loopback test need sockets, which this library does not
open, so a valid invocation stops with a note on the error stream.
-/

open PeerMessaging

def writeText (stream : IO.FS.Stream) (t : Text) : IO Unit := do
  stream.write (ByteArray.mk t.toUtf8.toArray)
  stream.flush

def main (args : List String) : IO UInt32 := do
  match Cli.run (args.map Text.ofString) with
  | .exit status out err =>
    writeText (← IO.getStdout) out
    writeText (← IO.getStderr) err
    return status.toUInt32
  | .start _ =>
    writeText (← IO.getStderr) (Text.ofString "networking is not available in this build\n")
    return 1
