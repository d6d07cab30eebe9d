import ScriptHost.Script.Library.Text

/-!
# Functions on arrays, bytes and maps

Items are compared as the language compares them. Two values of one type that the language cannot
compare are a fault, and values of different types are unequal.
-/

namespace ScriptHost.Script.Library

/-! ## Equality -/

mutual

/-- Whether two values are equal. -/
def equal : Datum → Datum → Except Cause Bool
  | .array as, .array bs => if as.length == bs.length then equalItems as bs else .ok false
  | .map fs, .map gs => if fs.length == gs.length then equalFields fs gs else .ok false
  | .bigInt a, .bigInt b => .ok (a == b)
  | a, b =>
    match Operator.binary? "==" a b with
    | some (.ok (.bool r)) => .ok r
    | some (.error c) => .error c
    | _ => .error (.functionNotFound (signature "==" [a, b]))

/-- Whether items are equal one by one. -/
def equalItems : List Datum → List Datum → Except Cause Bool
  | a :: as, b :: bs =>
    match equal a b with
    | .ok true => equalItems as bs
    | r => r
  | _, _ => .ok true

/-- Whether fields are equal one by one. -/
def equalFields : List (String × Datum) → List (String × Datum) → Except Cause Bool
  | (k, a) :: fs, (l, b) :: gs =>
    if k == l then
      match equal a b with
      | .ok true => equalFields fs gs
      | r => r
    else .ok false
  | _, _ => .ok true

end

/-- Whether two values are equal, as an answer. -/
def answerEqual (negated : Bool) (a b : Datum) : Option Answer :=
  match equal a b with
  | .ok r => yieldsBool (r != negated)
  | .error c => fails c

/-- The position of the first item that equals a value. -/
def findItem (d : Datum) : (position : Nat) → List Datum → Except Cause (Option Nat)
  | _, [] => .ok none
  | n, a :: rest =>
    match equal a d with
    | .ok true => .ok (some n)
    | .ok false => findItem d (n + 1) rest
    | .error c => .error c

/-! ## Arrays -/

/-- An answer about the first item that equals a value. -/
def answerFound (f : Option Nat → Option Answer) : Except Cause (Option Nat) → Option Answer
  | .ok n => f n
  | .error c => fails c

/-- The part of a sequence that the arguments after it stand for. -/
def partOf? (size : Nat) : List Datum → Option (Nat × Nat)
  | [.int start] => some (span size start size)
  | [.int start, .int n] => some (span size start n)
  | [.range a b] => some (rangeSpan size a b)
  | [.rangeInclusive a b] => some (rangeSpan size a (b + 1))
  | _ => none

/-- The functions that ask about arrays. -/
def arrayQuestion : String → Native
  | "len", [.array as] => yieldsInt as.length
  | "is_empty", [.array as] => yieldsBool as.isEmpty
  | "get", [.array as, .int i] =>
    yields (((index? as.length i).bind fun n => as[n]?).getD .unit)
  | "+", [.array as, .array bs] => yields (.array (as ++ bs))
  | "extract", .array as :: rest =>
    (partOf? as.length rest).bind fun p => yields (.array (slice as p))
  | "contains", [.array as, d] => answerFound (fun n => yieldsBool n.isSome) (findItem d 0 as)
  | "in", [.array as, d] => answerFound (fun n => yieldsBool n.isSome) (findItem d 0 as)
  | "index_of", [.array as, d] => answerFound position (findItem d 0 as)
  | "index_of", [.array as, d, .int start] =>
    let n := if 0 ≤ start then start.toNat else as.length - start.natAbs
    answerFound position (findItem d n (as.drop n))
  | "==", [.array as, .array bs] => answerEqual false (.array as) (.array bs)
  | "!=", [.array as, .array bs] => answerEqual true (.array as) (.array bs)
  | _, _ => none
where
  /-- The position, or minus one. -/
  position : Option Nat → Option Answer
    | some n => yieldsInt n
    | none => yieldsInt (-1)

/-- The functions that change arrays. -/
def arrayChange : String → Native
  | "set", [.array as, .int i, d] =>
    match index? as.length i with
    | some n => becomes (.array (as.set n d))
    | none => becomes (.array as)
  | "push", [.array as, d] => becomes (.array (as ++ [d]))
  | "append", [.array as, .array bs] => becomes (.array (as ++ bs))
  | "insert", [.array as, .int i, d] =>
    let n := if 0 ≤ i then min i.toNat as.length else as.length - i.natAbs
    becomes (.array (as.take n ++ d :: as.drop n))
  | "pad", [.array as, .int n, d] =>
    becomes (.array (as ++ List.replicate (n.toNat - as.length) d))
  | "pop", [.array as] =>
    match as.reverse with
    | [] => changes (.array []) .unit
    | d :: rest => changes (.array rest.reverse) d
  | "pop", [.array as, .int n] =>
    let left := as.length - n.toNat
    changes (.array (as.take left)) (.array (as.drop left))
  | "shift", [.array as] =>
    match as with
    | [] => changes (.array []) .unit
    | d :: rest => changes (.array rest) d
  | "shift", [.array as, .int n] =>
    changes (.array (as.drop n.toNat)) (.array (as.take n.toNat))
  | "remove", [.array as, .int i] =>
    match index? as.length i with
    | some n => changes (.array (as.eraseIdx n)) ((as[n]?).getD .unit)
    | none => changes (.array as) .unit
  | "reverse", [.array as] => becomes (.array as.reverse)
  | "clear", [.array _] => becomes (.array [])
  | "truncate", [.array as, .int n] => becomes (.array (as.take n.toNat))
  | "chop", [.array as, .int n] => becomes (.array (as.drop (as.length - n.toNat)))
  | "splice", [.array as, .int i, .int n, .array bs] =>
    becomes (.array (spliced as (span as.length i n) bs))
  | "splice", [.array as, d, .array bs] =>
    (partOf? as.length [d]).bind fun p => becomes (.array (spliced as p bs))
  | "drain", .array as :: rest =>
    (partOf? as.length rest).bind fun p => changes (.array (spliced as p [])) (.array (slice as p))
  | "retain", .array as :: rest =>
    (partOf? as.length rest).bind fun p => changes (.array (slice as p)) (.array (spliced as p []))
  | "split", [.array as, .int i] =>
    let n := if 0 ≤ i then min i.toNat as.length else as.length - i.natAbs
    changes (.array (as.take n)) (.array (as.drop n))
  | _, _ => none

/-! ## Bytes -/

/-- The least eight bits of an integer. -/
def byteOf (i : Int) : Nat := (i % 256).toNat

/-- The functions on bytes. -/
def blobFunction : String → Native
  | "blob", [] => yields (.blob [])
  | "blob", [.int n] => yields (.blob (List.replicate n.toNat 0))
  | "blob", [.int n, .int b] => yields (.blob (List.replicate n.toNat (byteOf b)))
  | "len", [.blob bs] => yieldsInt bs.length
  | "is_empty", [.blob bs] => yieldsBool bs.isEmpty
  | "get", [.blob bs, .int i] =>
    yieldsInt (((index? bs.length i).bind fun n => bs[n]?).getD 0 : Nat)
  | "set", [.blob bs, .int i, .int b] =>
    match index? bs.length i with
    | some n => becomes (.blob (bs.set n (byteOf b)))
    | none => becomes (.blob bs)
  | "push", [.blob bs, .int b] => becomes (.blob (bs ++ [byteOf b]))
  | "append", [.blob bs, .blob cs] => becomes (.blob (bs ++ cs))
  | "append", [.blob bs, .int b] => becomes (.blob (bs ++ [byteOf b]))
  | "append", [.blob bs, .string s] => becomes (.blob (bs ++ s.toUTF8.toList.map (·.toNat)))
  | "pop", [.blob bs] => changes (.blob bs.dropLast) (.int (bs.getLast?.getD 0 : Nat))
  | "shift", [.blob bs] => changes (.blob (bs.drop 1)) (.int (bs.headD 0 : Nat))
  | "remove", [.blob bs, .int i] =>
    match index? bs.length i with
    | some n => changes (.blob (bs.eraseIdx n)) (.int ((bs[n]?).getD 0 : Nat))
    | none => changes (.blob bs) (.int 0)
  | "reverse", [.blob bs] => becomes (.blob bs.reverse)
  | "clear", [.blob _] => becomes (.blob [])
  | "truncate", [.blob bs, .int n] => becomes (.blob (bs.take n.toNat))
  | "chop", [.blob bs, .int n] => becomes (.blob (bs.drop (bs.length - n.toNat)))
  | "pad", [.blob bs, .int n, .int b] =>
    becomes (.blob (bs ++ List.replicate (n.toNat - bs.length) (byteOf b)))
  | "insert", [.blob bs, .int i, .int b] =>
    let n := if 0 ≤ i then min i.toNat bs.length else bs.length - i.natAbs
    becomes (.blob (bs.take n ++ byteOf b :: bs.drop n))
  | "extract", .blob bs :: rest =>
    (partOf? bs.length rest).bind fun p => yields (.blob (slice bs p))
  | "contains", [.blob bs, .int b] => yieldsBool (bs.contains (byteOf b))
  | "to_array", [.blob bs] => yields (.array (bs.map fun (b : Nat) => .int b))
  | "as_string", [.blob bs] =>
    yieldsText ((String.fromUTF8? ⟨(bs.map UInt8.ofNat).toArray⟩).getD "")
  | _, _ => none

/-! ## Maps -/

/-- The functions on maps. -/
def mapFunction : String → Native
  | "len", [.map fs] => yieldsInt fs.length
  | "is_empty", [.map fs] => yieldsBool fs.isEmpty
  | "contains", [.map fs, .string k] => yieldsBool (Fields.contains k fs)
  | "get", [.map fs, .string k] => yields ((Fields.get? k fs).getD .unit)
  | "set", [.map fs, .string k, d] => becomes (.map (Fields.insert k d fs))
  | "remove", [.map fs, .string k] =>
    changes (.map (Fields.erase k fs)) ((Fields.get? k fs).getD .unit)
  | "clear", [.map _] => becomes (.map [])
  | "mixin", [.map fs, .map gs] => becomes (.map (Fields.union fs gs))
  | "+=", [.map fs, .map gs] => becomes (.map (Fields.union fs gs))
  | "+", [.map fs, .map gs] => yields (.map (Fields.union fs gs))
  | "fill_with", [.map fs, .map gs] => becomes (.map (Fields.union gs fs))
  | "keys", [.map fs] => yields (.array (Fields.keys fs |>.map .string))
  | "values", [.map fs] => yields (.array (Fields.values fs))
  | "to_json", [.map fs] => yieldsText (Datum.map fs).jsonText
  | "==", [.map fs, .map gs] => answerEqual false (.map fs) (.map gs)
  | "!=", [.map fs, .map gs] => answerEqual true (.map fs) (.map gs)
  | _, _ => none

end ScriptHost.Script.Library
