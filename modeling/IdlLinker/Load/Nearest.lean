import IdlLinker.Load.Mappings

/-!
# Where an issue is

The path of an issue leads through nodes of the document.  Of those outside
default values the innermost one that is a mapping, or a bare name that is an
item of an enum, starts on the line of the issue.  What is taken for that line
instead, if there is any, is a number that stands for a line in a default value.
-/

namespace IdlLinker.Load

open Yaml (Node Parsed)

/-- Steps that lead to the items of an enum. -/
def isItems : List PathStep → Bool
  | [.key "definitions", .index _, .key "items"] => true
  | _ => false

/-- What steps lead to tells its line: it is a mapping, or a bare name that is an
item of an enum. -/
def tellsLine (steps : List PathStep) : Node → Bool
  | .mapping _ _ => true
  | .scalar (.text _) _ =>
    match steps.getLast? with
    | some (.index _) => isItems steps.dropLast
    | _ => false
  | _ => false

section Nearest

variable (document : Parsed)

/-- The node that a step leads to. -/
def partOf? (node : Node) : PathStep → Option Node
  | .key name => document.member? node name
  | .index position =>
    match node with
    | .sequence items _ => items[position]?
    | _ => none

/-- The nodes on a way, each with the steps to it; those in default values are
left out. -/
def onWay (before : List PathStep) (node : Node) : List PathStep → List (List PathStep × Node)
  | [] => [(before, node)]
  | step :: rest =>
    (before, node) ::
      if step = .key defaultKey then []
      else
        match partOf? document node step with
        | some part => onWay (before ++ [step]) part rest
        | none => []

/-- The line that a node on a way tells. -/
def toldLine? (place : List PathStep × Node) : Option Number :=
  if tellsLine place.1 place.2 then document.lineOf? place.2 else none

/-- The line on which the last of some nodes starts that tells its line. -/
def innermostLine (nodes : List (List PathStep × Node)) : Option Number :=
  (nodes.filterMap (toldLine? document)).getLast?

/-- The line that a default value on a way seems to have: the number under the
key of lines in the innermost record there. -/
def defaultLine? (node : Node) : List PathStep → Option Number
  | [] => none
  | step :: rest =>
    match partOf? document node step with
    | some part =>
      if step = .key defaultKey then nearestLine none (document.plain part) rest
      else defaultLine? part rest
    | none => none

end Nearest

end IdlLinker.Load
