import Std.Async.Signal
import SplitHorizon.CommandLine
import SplitHorizon.Log.Level
import SplitHorizon.Machine.Files
import SplitHorizon.Machine.Listener
import SplitHorizon.Server.Reload
import SplitHorizon.Settings.Load
import SplitHorizon.Startup
/-!
# The program

The program reads its command line and its settings, loads the answers and serves them until it is
told to stop. A hangup makes it load the answers again. Reloads are done one after the other, by the
one loop that waits for hangups.
-/

namespace SplitHorizon.Program

open Std.Async (Async AsyncTask Signal await)

/-! ## Texts -/

/-- The name and the version of the program. -/
def version : String := "answer-dns 0.3.2"

/-- What the command line may say. -/
def help : String := String.intercalate "\n" [
  "Answers DNS queries per client network from a JSON answers file",
  "",
  "Usage: answer-dns [OPTIONS]",
  "",
  "Options:",
  "  -c, --config <FILE>          Configuration file path",
  "  -l, --listen <ADDR:PORT>     Address to listen on for TCP and UDP, e.g. " ++
    "\":53\" or \"127.0.0.1:5353\"",
  "  -a, --answers <FILE>         File containing the answers to respond with",
  "  -t, --ttl <TTL>              TTL for local answers",
  "      --log <FILE>             Append log output to this file instead of stderr",
  "      --pid-file <FILE>        Write the process id to this file",
  "      --log-level <LOG_LEVEL>  Log level (trace, debug, info, warn, error)",
  "  -d, --debug                  Shorthand for --log-level debug",
  "  -h, --help                   Print help",
  "  -V, --version                Print version"]

def usageMessage : UsageFault → String
  | .help => help
  | .version => version
  | .unknown => "error: unexpected argument found"
  | .repeated => "error: an argument cannot be used multiple times"
  | .noValue => "error: a value is required but none was supplied"
  | .badValue => "error: invalid value for '--ttl <TTL>'"
  | .extraValue => "error: unexpected value found"

/-! ## The log -/

/-- Writes a line to the log. -/
def note (log : LogSettings) (level : Log.Level) (line : String) : IO Unit := do
  if Log.allows log.level level then
    let text := level.text ++ " " ++ line
    match log.file with
    | none => IO.eprintln text
    | some path => discard (Machine.disk.append path (Text.utf8 (text ++ "\n").toList))

/-! ## Serving -/

/-- Loads the answers, and puts the store of them in place if there is one. -/
def reload (s : Settings) (store : IO.Ref Store) : IO Unit := do
  let built := Store.ofLoaded (← Machine.disk.load s.answers.path)
  store.modify fun installed => installed.replacedBy built
  match built with
  | .ok answers =>
    let counts := answers.counts
    note s.log .info ("Answers loaded: " ++ toString counts.selectors ++ " selectors, " ++
      toString counts.recordSets ++ " record sets, " ++ toString counts.targets ++
      " recursion targets")
  | .error why => note s.log .error ("Failed to load answers, keeping previous: " ++ why.message)

/-- Loads the answers again at every hangup. -/
def reloadOnHangup (s : Settings) (store : IO.Ref Store) (hangups : Signal.Waiter) :
    Async Unit := do
  while true do
    let hangup ← hangups.wait
    discard (await hangup)
    note s.log .info "Received SIGHUP, reloading answers"
    reload s store

/-- The number of the process. -/
def processNumber : IO Nat := do
  let status ← IO.FS.readFile "/proc/self/stat"
  pure (((status.takeWhile Char.isDigit).toNat?).getD 0)

/-- What ends the program: an error, or a line for the log. -/
abbrev Ending := Except IO.Error String

/-- Serves the answers until something ends the program. -/
def serve (s : Settings) (e : Endpoint) : IO UInt32 := do
  let store ← IO.mkRef Store.empty
  reload s store
  let hangups ← Signal.Waiter.mk .sighup true
  discard (reloadOnHangup s store hangups).toIO
  let (socket, server) ← Machine.listen e
  note s.log .info ("DNS server listening on UDP and TCP at " ++ e.toText)
  let service : Machine.Service :=
    ⟨store, s.answers.ttl, Machine.outside s.targets.milliseconds.toNat⟩
  let idle := s.listen.idleSeconds.toNat * 1000
  let datagrams ← (service.serveDatagrams socket).toIO
  let connections ← (service.serveConnections idle server).toIO
  let interrupt ← (← Signal.Waiter.mk .sigint false).wait
  let terminate ← (← Signal.Waiter.mk .sigterm false).wait
  let ends : List (Task Ending) := [
    AsyncTask.map (fun _ => "received SIGINT, shutting down") interrupt,
    AsyncTask.map (fun _ => "received SIGTERM, shutting down") terminate,
    AsyncTask.map (fun _ => "no more datagrams") datagrams,
    AsyncTask.map (fun _ => "no more connections") connections]
  match ← IO.waitAny ends with
  | .ok line =>
    note s.log .info line
    note s.log .info "Server shutdown complete"
    pure 0
  | .error why =>
    note s.log .error ("DNS server error: " ++ toString why)
    pure 1

/-! ## Starting -/

def fail (message : String) : IO UInt32 := do
  IO.eprintln ("Error: " ++ message)
  pure 1

/-- Starts the program with its settings. -/
def start (s : Settings) : IO UInt32 := do
  if let .error why := ← Startup.openLog Machine.disk s.log then
    return ← fail why.message
  note s.log .info ("Starting " ++ version)
  if let some path := s.pidFile then
    if let .error why := ← Startup.writePid Machine.disk (← processNumber) path then
      return ← fail why.message
  match s.endpoint with
  | .error why => fail why.message
  | .ok e =>
    try serve s e
    catch why => fail (toString why)

def run (line : CommandLine) : IO UInt32 := do
  match line.overrides with
  | .error why => fail (ConfigFault.setting why).message
  | .ok o =>
    match ← Settings.load Machine.disk line.config o with
    | .error why => fail why.message
    | .ok s => start s

def runArguments (arguments : List String) : IO UInt32 := do
  match CommandLine.read arguments with
  | .ok line => run line
  | .error .help =>
    IO.println help
    pure 0
  | .error .version =>
    IO.println version
    pure 0
  | .error why =>
    IO.eprintln (usageMessage why)
    pure 2

end SplitHorizon.Program

def main (arguments : List String) : IO UInt32 := SplitHorizon.Program.runArguments arguments
