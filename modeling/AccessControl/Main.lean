import AccessControl.CommandLine.Run
import Std.Time.DateTime

namespace AccessControl

instance : Files IO where
  read path := do
    try return some (← IO.FS.readFile path) catch _ => return none
  found path := do
    try
      let _ ← IO.FS.Handle.mk path .read
      return true
    catch _ => return false
  write path text := do
    try
      IO.FS.writeFile path text
      return true
    catch _ => return false
  makeDirectory path := do
    if path.isEmpty then return true
    try
      IO.FS.createDirAll path
      return true
    catch _ => return false

namespace CommandLine

def environment : IO Environment := do
  let text ← try IO.FS.readFile "/proc/self/environ" catch _ => pure ""
  return (text.splitOn "\x00").filterMap fun entry =>
    match entry.splitOn "=" with
    | name :: value :: more => some (name, "=".intercalate (value :: more))
    | _ => none

def now : IO Instant := do
  let clock ← Std.Time.Timestamp.now
  let t := Std.Time.PlainDateTime.ofWallTime (.ofDuration clock.toDurationSinceUnixEpoch)
  let read :=
    Instant.ofFields? t.year.toInt t.month.toNat t.day.toNat t.hour.toNat t.minute.toNat t.second.toNat
      t.nanosecond.toNat
  return read.getD .start2025

end CommandLine

end AccessControl

def main (args : List String) : IO UInt32 := do
  let env ← AccessControl.CommandLine.environment
  let out ← AccessControl.CommandLine.run args env (← AccessControl.CommandLine.now)
  IO.print out.stdout
  for line in out.stderr do IO.eprintln line
  if out.status = 2 then IO.eprint AccessControl.CommandLine.usage
  return out.status.toUInt32
