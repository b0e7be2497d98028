import Softphone.Json.Holdable
import Softphone.Json.Printer
import Softphone.Json.Reader
import Softphone.SessionError

/-!
# Logging

Levels of records, and the log of a program: the first configuration installed stays, and the log
begins with a record of welcome where records of its level are kept. Records are written as JSON, each
on a line of its own, or as text, where nothing that a terminal obeys gets through but line feeds do.
-/

namespace Softphone

/-- The level of a record, the gravest first. -/
inductive LogLevel
  | error
  | warn
  | info
  | debug
  | trace
  deriving DecidableEq, Repr

namespace LogLevel

def name : LogLevel → String
  | error => "ERROR"
  | warn => "WARN"
  | info => "INFO"
  | debug => "DEBUG"
  | trace => "TRACE"

/-- How much a log of this level keeps: one level more for each number. -/
def verbosity : LogLevel → Nat
  | error => 1
  | warn => 2
  | info => 3
  | debug => 4
  | trace => 5

/-- Whether a log of one level keeps records of another. -/
def keeps (level record : LogLevel) : Bool := record.verbosity ≤ level.verbosity

def all : List LogLevel := [error, warn, info, debug, trace]

/-- The bound of the numbers that may stand for a level. -/
def numberBound : Nat := UInt64.size

/-- Reads a level: its number, or its name in letters of either case. -/
def parse (text : String) : Except SessionError LogLevel :=
  let word := Text.trim text
  let level := match Text.readUnsigned? numberBound word.toList with
    | some n => all.find? (·.verbosity = n)
    | none => all.find? fun level => level.name.toList = word.toList.map Char.toUpper
  match level with
  | some level => .ok level
  | none => .error (.invalidConfiguration "log_level" ("Invalid log level: " ++ text))

end LogLevel

/-- How a program logs. -/
structure LogConfig where
  level : LogLevel
  /-- Records are written as JSON. -/
  json : Bool := false
  /-- Records name the place in the program that they come from. -/
  places : Bool := false
  /-- Spans are logged when they are entered and left. -/
  spans : Bool := false
  application : String
  deriving DecidableEq, Repr

/-- The version of this library. -/
def version : String := "0.1.0"

/-- The log of a program. -/
structure Log where
  config : Option LogConfig := none
  records : List String := []
  deriving DecidableEq, Repr

namespace Log

/-- The beginning of a record of welcome. -/
def greeting : String := "Starting "

/-- The record with which the log of an application begins. -/
def welcome (application : String) : String :=
  greeting ++ application ++ " v" ++ version

/-- Installs a configuration unless there is one already; tells whether it did. -/
def install (log : Log) (config : LogConfig) : Bool × Log :=
  if log.config.isSome then (false, log)
  else
    (true, { log with
      config := some config
      records :=
        if config.level.keeps .info then log.records ++ [welcome config.application]
        else log.records })

/-- Whether records are written as JSON. -/
def writesJson (log : Log) : Bool := log.config.any (·.json)

/-- The control characters of seven bits by which a terminal is steered: bell, backspace, form feed,
escape and delete. -/
def controls : List Nat := [0x07, 0x08, 0x0C, 0x1B, 0x7F]

/-- A character as it is written in text: a control character is spelled out by its number. -/
def spelled (c : Char) : List Char :=
  let n := c.toNat
  if n ∈ controls then '\\' :: 'x' :: Text.hexDigits 2 n
  else if 0x80 ≤ n ∧ n ≤ 0x9F then '\\' :: 'u' :: '\x7b' :: (Text.toHex n ++ ['\x7d'])
  else [c]

/-- A record as it is written, without what depends on its time and place. -/
def written (json : Bool) (record : String) : List Char :=
  if json then (Json.record [("fields", .record [("message", .str record)])]).text.toList
  else record.toList.flatMap spelled

/-- What a reader finds on the lines of the log: one for a record in JSON, and in text as many as the
record has. -/
def lines (log : Log) : List String :=
  log.records.flatMap fun record =>
    (Text.lines (written log.writesJson record)).map String.ofList

/-- Whether a line is JSON: a value that can be held as it is. -/
def isJsonLine (line : String) : Bool :=
  (Json.parse? line).any (·.isHoldable Json.deepest)

/-- How many lines are JSON. A line of text may be so by accident. -/
def jsonCount (log : Log) : Nat := log.lines.countP isJsonLine

/-- The welcome as a reader finds it: from its greeting up to a quote or the end of the line. -/
def foundWelcome? (log : Log) : Option String :=
  log.lines.findSome? fun line =>
    (Text.suffixFrom? greeting.toList line.toList).map fun found =>
      String.ofList (found.takeWhile (· ≠ '"'))

end Log

end Softphone
