import ShardedSql.Error.Message
import ShardedSql.Execution.Execute
import ShardedSql.Planning.Statement
import ShardedSql.Sql.Statement.Parse

namespace ShardedSql.Shell

open Execution (Reply Request execute)
open Planning (Call Plan Services plan)
open Result (ResultSet headerLine rowLine)
open Routing (Rule RuleTable)
open Sql (Statement)

/-- A session that shows where statements would go. Nothing is ever sent to a backend. -/
structure Session where
  db : String
  config : Config
  rules : RuleTable
  registry : Registry

def prompt : String := "shardplan> "

def usage : String :=
  "usage: shardplan <default-db> [table:key:count:slice[,slice...][:hash] ...]"

def addRules (db : String) (table : RuleTable) (specs : List String) : Except Error RuleTable :=
  specs.foldlM (fun t spec => do t.add (← Rule.ofSpec? db spec)) table

/-- Opens a session from the arguments of the command: a database and rules for it. -/
def Session.open? (config : Config) : List String → Except String Session
  | [] => .error usage
  | db :: specs =>
    match addRules db .empty specs with
    | .error e => .error e.message
    | .ok rules => .ok ⟨db, config, rules, ⟨[], some ⟨1, 1⟩⟩⟩

/-- A statement that is not an EXPLAIN is explained all the same. -/
def explained : Statement → Statement
  | .explain inner => .explain inner
  | stmt => .explain stmt

def noBackend (c : Call) : Reply :=
  ⟨0, .error (.backend c.slice c.db "no backend attached to the explain shell")⟩

def explain (s : Session) (text : String) : Except Error ResultSet × Session :=
  match Statement.ofString? text with
  | .error e => (.error e, s)
  | .ok stmt =>
    let (planned, registry) :=
      (plan (Services.ofRouter s.rules.router) s.config (explained stmt) s.db text).run s.registry
    let answer := planned.bind fun p =>
      (execute s.config ⟨none, none⟩ noBackend p).result
    (answer, { s with registry := registry })

/-- The lines of a result. -/
def resultLines (r : ResultSet) : List String := headerLine r.columns :: r.rows.map rowLine

/-- A line without the blanks around it and the semicolons at its end. -/
def command (line : String) : String :=
  String.ofList ((Text.trim line).toList.reverse.dropWhile (· = ';')).reverse

def isExit (command : String) : Bool :=
  Text.lower command = ".exit" || Text.lower command = "exit"

/-- What a line is answered with, and the session after it, which is none if the line ends it.
A statement that fails is answered with nothing. -/
def Session.answer (s : Session) (line : String) : List String × Option Session :=
  let text := command line
  if text = "" then ([], some s)
  else if isExit text then ([], none)
  else
    match explain s text with
    | (.ok result, s) => (resultLines result, some s)
    | (.error _, s) => ([], some s)

/-- The output for lines of input, with the prompt before each of them and before the end. -/
def Session.transcript (s : Session) : List String → String
  | [] => prompt
  | line :: lines =>
    match s.answer line with
    | (out, none) => prompt ++ String.join (out.map (· ++ "\n"))
    | (out, some s) => prompt ++ String.join (out.map (· ++ "\n")) ++ s.transcript lines

/-- The lines of a text, each up to its line feed. What stands behind the last line feed is a line
unless it is empty. -/
def linesOf : List Char → List (List Char)
  | [] => []
  | c :: cs =>
    if c = '\n' then [] :: linesOf cs
    else
      match linesOf cs with
      | [] => [[c]]
      | line :: lines => (c :: line) :: lines

/-- How a run of the command ends. -/
structure Exit where
  code : Nat
  output : String
  errors : String
  deriving DecidableEq, Repr

def run (arguments : List String) (environment : String → Option String) (input : String) : Exit :=
  match Session.open? (Config.ofEnvironment environment) arguments with
  | .error message => ⟨2, "", message ++ "\n"⟩
  | .ok s => ⟨0, s.transcript ((linesOf input.toList).map String.ofList), ""⟩

end ShardedSql.Shell
