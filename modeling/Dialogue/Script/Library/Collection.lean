import Dialogue.Script.Access
import Dialogue.Script.Library.Outcome
/-!
# `Dialogue.Script.Library.Collection` — functions on arrays, maps and ranges.

What adds, removes or orders items changes the array or map it is called on. Taking an item that is not there
yields `()`.
-/

namespace Dialogue.Script.Library

/-- The items in order, if they are of one type that has one. -/
def ordered? (items : List Value) : Option (List Value) :=
  match items with
  | .int _ :: _ | .float _ :: _ | .str _ :: _ | .char _ :: _ | .bool _ :: _ =>
    some (items.mergeSort fun a b =>
      match Operator.result? "<" b a with
      | some (.ok (.bool less)) => !less
      | _ => true)
  | _ => none

/-- **Put an array in order.** Items of different types are in none. -/
def sorted (items : List Value) : Except Cause (List Value) :=
  match items with
  | [] | [_] => .ok items
  | first :: rest =>
    if rest.all first.sameType then .ok ((ordered? items).getD items)
    else .error (.functionNotFound "sort() cannot be called with elements of different types")

/-- Put an item at an offset; behind all others if there is no such offset. -/
def inserted (items : List Value) (n : Int64) (v : Value) : List Value :=
  items.insertIdx (min (offset items.length n) items.length) v

/-- Take out an item. -/
def without (items : List Value) (n : Int64) : Value × List Value :=
  match Access.position? items.length n.toInt with
  | some i => ((items[i]?).getD .unit, items.eraseIdx i)
  | none => (.unit, items)

/-- **Functions on arrays.** -/
def onArrays? (name : String) (arguments : List Value) : Call :=
  match arguments with
  | .array items :: rest =>
    match name, rest with
    | "len", [] => .count items.length
    | "is_empty", [] => .truth items.isEmpty
    | "pop", [] => .becomes (.array items.dropLast) (items.getLast?.getD .unit)
    | "shift", [] => .becomes (.array items.tail) (items.head?.getD .unit)
    | "clear", [] => .becomes (.array []) .unit
    | "reverse", [] => .becomes (.array items.reverse) .unit
    | "sort", [] =>
      match sorted items with
      | .ok items => .becomes (.array items) .unit
      | .error cause => some (.error cause)
    | "push", [v] => .becomes (.array (items ++ [v])) .unit
    | "append", [.array more] => .becomes (.array (items ++ more)) .unit
    | "contains", [v] => .attempt ((Operation.isAmong v items).map .bool)
    | "index_of", [v] => .attempt ((Operation.indexAmong v 0 items).map fun i => .int (Int64.ofInt i))
    | "remove", [.int n] =>
      let (v, left) := without items n
      .becomes (.array left) v
    | "insert", [.int n, v] => .becomes (.array (inserted items n v)) .unit
    | "index_of", [v, .int n] =>
      let start := offset items.length n
      .attempt ((Operation.indexAmong v start (items.drop start)).map fun i => .int (Int64.ofInt i))
    | _, _ => none
  | _ => none

/-- **Functions on maps and ranges.** -/
def onMaps? (name : String) (arguments : List Value) : Call :=
  match arguments with
  | .object fields :: rest =>
    match name, rest with
    | "len", [] => .count fields.length
    | "is_empty", [] => .truth fields.isEmpty
    | "keys", [] => .yields (.array (fields.map fun f => .str f.1))
    | "values", [] => .yields (.array (fields.map (·.2)))
    | "contains", [.str k] => .truth (Datum.field? fields k).isSome
    | "get", [.str k] => .yields ((Datum.field? fields k).getD .unit)
    | "set", [.str k, v] => .becomes (.object (Datum.setField k v fields)) .unit
    | "remove", [.str k] =>
      .becomes (.object (fields.filter (·.1 != k))) ((Datum.field? fields k).getD .unit)
    | "clear", [] => .becomes (.object []) .unit
    | "mixin", [.object more] => .becomes (.object (Operation.overlaid fields more)) .unit
    | _, _ => none
  | [.range first last inclusive, .int n] =>
    match name with
    | "contains" =>
      .truth (first.toInt ≤ n.toInt && (n.toInt < last.toInt || (inclusive && n == last)))
    | _ => none
  | _ => none

end Dialogue.Script.Library
