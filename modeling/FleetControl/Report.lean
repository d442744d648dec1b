import FleetControl.Batch.Outcome
import FleetControl.Json.Writer
import FleetControl.Record

namespace FleetControl

inductive OutputFormat
  | human
  | json
deriving DecidableEq, Repr

structure Printed where
  out : String
  err : String
deriving DecidableEq, Repr

def Printed.nothing : Printed := ⟨"", ""⟩

namespace Report

open Batch

variable {α : Type}

def line (text : String) : String := text ++ "\n"

def itemLine (i : Item α) (status : String) : String := line s!"{i.token} ({i.uuid}): {status}"

def itemOut (i : Item α) : String :=
  match i.result with
  | .ok _ => itemLine i "ok"
  | .error _ => ""

def itemErr (i : Item α) : String :=
  match i.result with
  | .ok _ => ""
  | .error e => itemLine i e.shown

def itemJson (toJson : α → Json) (i : Item α) : Json :=
  match i.result with
  | .ok a => .object [("result", (toJson a).sortKeys), ("token", .text i.token), ("uuid", .text i.uuid)]
  | .error e => .object [("error", .text e.shown), ("token", .text i.token), ("uuid", .text i.uuid)]

def outcomeJson (toJson : α → Json) (o : Outcome α) : Json := .list (o.items.map (itemJson toJson))

def outcome (format : OutputFormat) (toJson : α → Json) (o : Outcome α) : Printed :=
  match format with
  | .human => ⟨String.join (o.items.map itemOut), String.join (o.items.map itemErr)⟩
  | .json => ⟨line (outcomeJson toJson o).pretty, ""⟩

def records (format : OutputFormat) (rs : List Record) : String :=
  match format with
  | .human => String.join (rs.map fun r => line r.line)
  | .json => line (Json.list (rs.map Record.toJson)).pretty

def resultJson (r : Option Record) : Json := (r.map Record.toJson).getD .null

end Report
end FleetControl
