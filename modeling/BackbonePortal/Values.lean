import Mathlib.Algebra.Group.Int.Defs
import Mathlib.Algebra.Group.Nat.Defs
import Mathlib.Data.List.Basic

/-!
# Text, identifiers, instants and JSON

The values the module's statements bind and its links, audit rows and
responses are made of, with the readers and renderings of the standard library
and of `uuid`, `chrono` and `serde_json` that the module calls.
-/

namespace BackbonePortal

/-! ## Text -/

/-- The UTF-8 bytes of a string. -/
def bytes (s : String) : List UInt8 := s.toList.flatMap String.utf8EncodeChar

/-- `str::len`, the length in bytes. -/
def byteLen (s : String) : Nat := (bytes s).length

/-- Unicode `White_Space`. -/
def isWhite (c : Char) : Bool :=
  let n := c.toNat
  (9 ≤ n && n ≤ 13) || n = 0x20 || n = 0x85 || n = 0xA0 || n = 0x1680 || (0x2000 ≤ n && n ≤ 0x200A) ||
    n = 0x2028 || n = 0x2029 || n = 0x202F || n = 0x205F || n = 0x3000

/-- Drop the characters satisfying `p` from both ends. -/
def trimBy (p : Char → Bool) (s : String) : String :=
  String.ofList ((s.toList.dropWhile p).reverse.dropWhile p).reverse

/-- `str::trim`. -/
def trim : String → String := trimBy isWhite

/-- SQL `btrim`, which strips plain blanks. -/
def btrim : String → String := trimBy (· = ' ')

/-- `str::split` at one character. -/
def splitAt (c : Char) (s : String) : List String := (s.toList.splitOn c).map String.ofList

/-- SQL `char_length(s) <= n`. -/
def withinLength (n : Nat) (s : String) : Bool := s.length ≤ n

/-- SQL `btrim(s) <> ''`. -/
def notBlank (s : String) : Bool := btrim s ≠ ""

def digitOf (n : Nat) : Char := Char.ofNat (if n < 10 then 48 + n else 87 + n)

/-- `u8 as char` to a hexadecimal digit, either case. -/
def hexVal (b : UInt8) : Option Nat :=
  if 48 ≤ b ∧ b ≤ 57 then some (b.toNat - 48)
  else if 97 ≤ b ∧ b ≤ 102 then some (b.toNat - 87)
  else if 65 ≤ b ∧ b ≤ 70 then some (b.toNat - 55)
  else none

/-- `is_ascii_hexdigit` of every byte. -/
def allHex (s : String) : Bool := (bytes s).all fun b => (hexVal b).isSome

/-- `{b:02x}` for each byte. -/
def hexOf (bs : List UInt8) : String :=
  String.ofList (bs.flatMap fun b => [digitOf (b.toNat / 16), digitOf (b.toNat % 16)])

/-- Two digits a byte. -/
def hexPairs : List UInt8 → Option (List UInt8)
  | [] => some []
  | [_] => none
  | hi :: lo :: rest => do
    let h ← hexVal hi
    let l ← hexVal lo
    let bs ← hexPairs rest
    pure (UInt8.ofNat (h * 16 + l) :: bs)

def hexDecode (s : String) : Option (List UInt8) :=
  if byteLen s % 2 ≠ 0 then none else hexPairs (bytes s)

/-- The low `4 * n` bits in `n` hexadecimal digits. -/
def hexDigits : Nat → Nat → List Char
  | 0, _ => []
  | n + 1, v => hexDigits n (v / 16) ++ [digitOf (v % 16)]

/-- The number a run of hexadecimal digits denotes. -/
def ofHexDigits (bs : List UInt8) : Option Nat :=
  bs.foldlM (fun acc b => (hexVal b).map (acc * 16 + ·)) 0

def ofDigits (bs : List UInt8) : Option Nat :=
  bs.foldlM (fun acc b => if 48 ≤ b ∧ b ≤ 57 then some (acc * 10 + (b.toNat - 48)) else none) 0

/-- `str::parse::<i64>`: an optional sign, at least one digit, no overflow. -/
def parseI64 (s : String) : Option Int := do
  let n ← match bytes s with
    | [] => none
    | [b] => (ofDigits [b]).map Int.ofNat
    | b :: bs =>
      if b = 45 then (ofDigits bs).map fun n => -(n : Int)
      else if b = 43 then (ofDigits bs).map Int.ofNat
      else (ofDigits (b :: bs)).map Int.ofNat
  if -(2 ^ 63) ≤ n ∧ n < 2 ^ 63 then some n else none

/-- A number in at least `n` decimal digits. -/
def padded (n : Nat) (v : Nat) : String :=
  String.ofList (List.replicate (n - (toString v).length) '0') ++ toString v

/-! ## Identifiers -/

structure Uuid where
  bits : BitVec 128
deriving DecidableEq, Repr, Inhabited

/-- `Display`: lower case, hyphenated. -/
def Uuid.display (u : Uuid) : String :=
  let ds := hexDigits 32 u.bits.toNat
  String.ofList (ds.take 8 ++ '-' :: (ds.drop 8).take 4 ++ '-' :: (ds.drop 12).take 4 ++
    '-' :: (ds.drop 16).take 4 ++ '-' :: ds.drop 20)

def Uuid.ofHex (bs : List UInt8) : Option Uuid := (ofHexDigits bs).map fun n => ⟨BitVec.ofNat 128 n⟩

def Uuid.parseHyphenated (bs : List UInt8) : Option Uuid :=
  if bs[8]? = some 45 ∧ bs[13]? = some 45 ∧ bs[18]? = some 45 ∧ bs[23]? = some 45 then
    Uuid.ofHex (bs.take 8 ++ (bs.drop 9).take 4 ++ (bs.drop 14).take 4 ++ (bs.drop 19).take 4 ++ bs.drop 24)
  else none

/-- `Uuid::parse_str`: simple, hyphenated, braced or as a URN. -/
def Uuid.parse (s : String) : Option Uuid :=
  let bs := bytes s
  if bs.length = 32 then Uuid.ofHex bs
  else if bs.length = 36 then Uuid.parseHyphenated bs
  else if bs.length = 38 ∧ bs.head? = some 123 ∧ bs.getLast? = some 125 then
    Uuid.parseHyphenated (bs.drop 1).dropLast
  else if bs.length = 45 ∧ bs.take 9 = bytes "urn:uuid:" then Uuid.parseHyphenated (bs.drop 9)
  else none

theorem hexDigits_length (n v : Nat) : (hexDigits n v).length = n := by
  induction n generalizing v with
  | zero => rfl
  | succ n ih => simp [hexDigits, ih]

theorem digitOf_inj {v w : Nat} (hv : v < 16) (hw : w < 16) (h : digitOf v = digitOf w) : v = w := by
  have : ∀ v < 16, ∀ w < 16, digitOf v = digitOf w → v = w := by decide
  exact this v hv w hw h

theorem hexDigits_inj {n v w : Nat} (hv : v < 16 ^ n) (hw : w < 16 ^ n)
    (h : hexDigits n v = hexDigits n w) : v = w := by
  induction n generalizing v w with
  | zero => omega
  | succ n ih =>
    rw [Nat.pow_succ] at hv hw
    obtain ⟨hinit, hlast⟩ := List.append_inj' h rfl
    have hdiv : v / 16 = w / 16 := ih (by omega) (by omega) hinit
    have hmod : v % 16 = w % 16 := digitOf_inj (by omega) (by omega) (List.singleton_inj.mp hlast)
    omega

theorem digitOf_ne_dash {v : Nat} (hv : v < 16) : digitOf v ≠ '-' := by
  have : ∀ v < 16, digitOf v ≠ '-' := by decide
  exact this v hv

theorem dash_notMem_hexDigits (n v : Nat) : '-' ∉ hexDigits n v := by
  induction n generalizing v with
  | zero => exact List.not_mem_nil
  | succ n ih =>
    intro h
    rcases List.mem_append.mp h with h | h
    · exact ih _ h
    · exact digitOf_ne_dash (Nat.mod_lt v (by decide)) (List.mem_singleton.mp h).symm

theorem Uuid.display_filter (u : Uuid) : u.display.toList.filter (· ≠ '-') = hexDigits 32 u.bits.toNat := by
  simp only [Uuid.display, String.toList_ofList]
  generalize hds : hexDigits 32 u.bits.toNat = ds
  have hno : '-' ∉ ds := hds ▸ dash_notMem_hexDigits 32 _
  have keep : ∀ cs : List Char, (∀ c ∈ cs, c ∈ ds) → cs.filter (· ≠ '-') = cs := by
    intro cs hcs
    exact List.filter_eq_self.mpr fun c hc => decide_eq_true fun e => hno (e ▸ hcs c hc)
  have dash : ∀ cs : List Char, ('-' :: cs).filter (· ≠ '-') = cs.filter (· ≠ '-') := fun cs => rfl
  have mid : ∀ k, ∀ c ∈ (ds.drop k).take 4, c ∈ ds :=
    fun k c hc => List.mem_of_mem_drop (List.mem_of_mem_take hc)
  rw [List.filter_append, List.filter_append, List.filter_append, List.filter_append, dash, dash, dash, dash,
    keep _ fun c hc => List.mem_of_mem_take hc, keep _ (mid 8), keep _ (mid 12), keep _ (mid 16),
    keep _ fun c hc => List.mem_of_mem_drop hc, ← List.take_add, ← List.take_add, ← List.take_add,
    List.take_append_drop]

theorem Uuid.display_inj {u v : Uuid} (h : u.display = v.display) : u = v := by
  have hdigits := congrArg (fun s => s.toList.filter (· ≠ '-')) h
  simp only [Uuid.display_filter] at hdigits
  have hbits := hexDigits_inj (u.bits.isLt) (v.bits.isLt) hdigits
  cases u; cases v
  exact congrArg Uuid.mk (BitVec.eq_of_toNat_eq hbits)

example : (Uuid.parse "6BA7B810-9DAD-11D1-80B4-00C04FD430C8").map Uuid.display =
    some "6ba7b810-9dad-11d1-80b4-00c04fd430c8" := by decide

/-! ## Instants -/

/-- `DateTime<Utc>` in nanoseconds since 1970. -/
abbrev Instant := Int

def seconds (n : Int) : Int := n * 1000000000

/-- `DateTime::timestamp`. -/
def Instant.timestamp (t : Instant) : Int := Int.fdiv t 1000000000

/-- The whole seconds of a duration, towards zero. -/
def numSeconds (d : Int) : Int := Int.tdiv d 1000000000

/-- What a `timestamptz` column keeps: microseconds, counted from 2000. -/
def Instant.stored (t : Instant) : Instant :=
  let epoch := seconds 946684800
  epoch + Int.tdiv (t - epoch) 1000 * 1000

/-- The last instant `chrono` represents. -/
def maxUtc : Instant := seconds 8210266876799 + 999999999

/-- Year, month and day of a day counted from 1970-01-01. -/
def civil (days : Int) : Int × Int × Int :=
  let z := days + 719468
  let era := Int.fdiv z 146097
  let doe := z - era * 146097
  let yoe := (doe - doe / 1460 + doe / 36524 - doe / 146096) / 365
  let doy := doe - (365 * yoe + yoe / 4 - yoe / 100)
  let mp := (5 * doy + 2) / 153
  let m := if mp < 10 then mp + 3 else mp - 9
  (yoe + era * 400 + (if m ≤ 2 then 1 else 0), m, doy - (153 * mp + 2) / 5 + 1)

/-- `DateTime::to_rfc3339`. -/
def Instant.toRfc3339 (t : Instant) : String :=
  let secs := t.timestamp
  let nanos := (t - seconds secs).toNat
  let (y, m, d) := civil (Int.fdiv secs 86400)
  let s := (secs - Int.fdiv secs 86400 * 86400).toNat
  let year :=
    if 0 ≤ y ∧ y ≤ 9999 then padded 4 y.toNat else (if y < 0 then "-" else "+") ++ padded 4 y.natAbs
  let frac :=
    if nanos = 0 then ""
    else if nanos % 1000000 = 0 then "." ++ padded 3 (nanos / 1000000)
    else if nanos % 1000 = 0 then "." ++ padded 6 (nanos / 1000)
    else "." ++ padded 9 nanos
  year ++ "-" ++ padded 2 m.toNat ++ "-" ++ padded 2 d.toNat ++ "T" ++ padded 2 (s / 3600) ++ ":" ++
    padded 2 (s / 60 % 60) ++ ":" ++ padded 2 (s % 60) ++ frac ++ "+00:00"

example : Instant.toRfc3339 (seconds 1709208000 + 5000000) = "2024-02-29T12:00:00.005+00:00" := by decide

/-! ## JSON -/

/-- `serde_json::Value`; the keys of an object are sorted and distinct. -/
inductive Json where
  | null
  | bool (b : Bool)
  | num (n : Int)
  | str (s : String)
  | arr (xs : List Json)
  | obj (fields : List (String × Json))

/-- `Map::insert`. -/
def Json.insert (k : String) (v : Json) : List (String × Json) → List (String × Json)
  | [] => [(k, v)]
  | (k', v') :: fs =>
    if k = k' then (k, v) :: fs
    else if k < k' then (k, v) :: (k', v') :: fs
    else (k', v') :: Json.insert k v fs

/-- `json!({ … })`. -/
def Json.object (fields : List (String × Json)) : Json :=
  .obj (fields.foldl (fun fs f => Json.insert f.1 f.2 fs) [])

def Json.option (f : α → Json) : Option α → Json
  | none => .null
  | some a => f a

end BackbonePortal
