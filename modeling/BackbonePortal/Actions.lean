import BackbonePortal.Pool
import BackbonePortal.Throttle

/-!
# The module as a machine

A verb of the module is a program over these actions: one SQL statement, one
reading of the clock, one random draw, one call of the host's verifier, or one
critical section of the attempt book. Each reads one input of the
environment, which decides the clock, the draws and the failures.
-/

namespace BackbonePortal

open Proc

/-- What the module calls and `src/` does not define: the MAC, Unicode lower
case, and the texts of foreign errors. -/
structure Deps where
  /-- HMAC-SHA256 of the message's bytes under the key. -/
  hmacSha256 : List UInt8 → String → List UInt8
  toLowercase : String → String
  sqlErrorText : SqlError → String
  /-- The text of a `serde_json` error on an event payload. -/
  payloadErrorText : Json → String

/-- A composed portal: its dependencies and its two secrets. -/
structure Portal extends Deps where
  bearerSecret : List UInt8
  recipientSecret : List UInt8

/-- How a verb ends when it does not return a value: the module's error, the
error handed to the event bus, a panic. -/
inductive Halt where
  | err (e : PortalError)
  | event (handler message : String)
  | panicked (message : String)
deriving DecidableEq, Repr

inductive Act where
  | sql (q : Stmt)
  | now
  | newUuid
  | mintNonce
  | verify (email presented : String)
  | check (key : String) (now : Instant)
  | registerFailure (key : String) (now : Instant)
  | reset (key : String)

@[reducible] def Act.Res : Act → Type
  | .sql q => Except SqlError q.Res
  | .now => Instant
  | .newUuid => Uuid
  | .mintNonce => String
  -- none: no verifier installed; an error carries the verifier's text
  | .verify _ _ => Option (Except String Bool)
  | .check _ _ => Except PortalError Unit
  | .registerFailure _ _ => Unit
  | .reset _ => Unit

@[reducible] def portalSig : Sig := ⟨Act, Act.Res⟩

abbrev Verb := Prog portalSig Halt

/-- One input of the environment. -/
structure Env where
  now : Instant := 0
  fault : Option String := none
  uuid : Uuid := ⟨0⟩
  nonce : BitVec 128 := 0
  scan : Nat := 0
  verdict : Option (Except String Bool) := none

/-- What happened at the credential gate, in order. -/
inductive GateEvent where
  | asked (email : String) (start : Instant) (verdict : Option (Except String Bool))
  | cleared (key : String)

structure World where
  db : Db
  book : AttemptBook
  /-- The history of the verifier and of the counter resets. -/
  gate : List GateEvent := []
  /-- The clock at the last action. -/
  clock : Instant := 0

/-- 32 lower-case hexadecimal digits. -/
def nonceOf (bits : BitVec 128) : String := String.ofList (hexDigits 32 bits.toNat)

/-- The answer of a statement and the database after it. -/
def Stmt.answer (q : Stmt) (i : Env) (db : Db) : Except SqlError q.Res × Db :=
  match i.fault with
  | some text => (.error (.fault text), db)
  | none =>
    match q.exec i.now.stored i.scan db with
    | .ok (r, db') => (.ok r, db')
    | .error e => (.error e, db)

def Act.exec : (a : Act) → Env → World → a.Res × World
  | .sql q, i, w => ((q.answer i w.db).1, { w with db := (q.answer i w.db).2, clock := i.now })
  | .now, i, w => (i.now, { w with clock := i.now })
  | .newUuid, i, w => (i.uuid, { w with clock := i.now })
  | .mintNonce, i, w => (nonceOf i.nonce, { w with clock := i.now })
  | .verify email _, i, w =>
    (i.verdict, { w with gate := w.gate ++ [.asked email i.now i.verdict], clock := i.now })
  | .check key t, i, w => (w.book.check key t, { w with clock := i.now })
  | .registerFailure key t, i, w => ((), { w with book := w.book.registerFailure key t, clock := i.now })
  | .reset key, i, w =>
    ((), { w with book := w.book.reset key, gate := w.gate ++ [.cleared key], clock := i.now })

@[reducible] def portalMachine : Machine portalSig := ⟨World, Env, Act.exec⟩

/-! ## Steps of a verb -/

/-- A statement whose failure the verb handles itself. -/
def trySql (q : Stmt) : Verb (Except SqlError q.Res) := .act (.sql q) .ret

/-- A statement followed by `?`. -/
def query (q : Stmt) : Verb q.Res :=
  .act (.sql q) fun
    | .ok r => .ret r
    | .error e => .fail (.err (.db e))

def utcNow : Verb Instant := .act .now .ret

def newUuid : Verb Uuid := .act .newUuid .ret

def mintNonce : Verb String := .act .mintNonce .ret

/-- The credential slot's `check`. -/
def checkCredential (email presented : String) : Verb (Option (Except String Bool)) :=
  .act (.verify email presented) .ret

/-- `AttemptBook::check` followed by `?`. -/
def checkKey (key : String) (now : Instant) : Verb Unit :=
  .act (.check key now) fun
    | .ok u => .ret u
    | .error e => .fail (.err e)

def registerFailure (key : String) (now : Instant) : Verb Unit := .act (.registerFailure key now) .ret

def resetKey (key : String) : Verb Unit := .act (.reset key) .ret

def refuse (e : PortalError) : Verb α := .fail (.err e)

/-! ## What an action does to the world -/

section
variable {q : Stmt} {i : Env} {db : Db}

theorem Stmt.answer_fault {text : String} (h : i.fault = some text) :
    q.answer i db = (.error (.fault text), db) := by simp only [Stmt.answer, h]

theorem Stmt.answer_of_ok {r : q.Res} {db' : Db} (hf : i.fault = none)
    (h : q.exec i.now.stored i.scan db = .ok (r, db')) : q.answer i db = (.ok r, db') := by
  simp only [Stmt.answer, hf, h]

theorem Stmt.answer_of_error {e : SqlError} (hf : i.fault = none)
    (h : q.exec i.now.stored i.scan db = .error e) : q.answer i db = (.error e, db) := by
  simp only [Stmt.answer, hf, h]

theorem Stmt.answer_error {e : SqlError} (h : (q.answer i db).1 = .error e) : (q.answer i db).2 = db := by
  cases hf : i.fault with
  | some text => rw [answer_fault hf]
  | none =>
    cases hq : q.exec i.now.stored i.scan db with
    | error e => rw [answer_of_error hf hq]
    | ok r => rw [answer_of_ok hf hq] at h; cases h

theorem Stmt.answer_ok {r : q.Res} (h : (q.answer i db).1 = .ok r) :
    i.fault = none ∧ q.exec i.now.stored i.scan db = .ok (r, (q.answer i db).2) := by
  cases hf : i.fault with
  | some text => rw [answer_fault hf] at h; cases h
  | none =>
    cases hq : q.exec i.now.stored i.scan db with
    | error e => rw [answer_of_error hf hq] at h; cases h
    | ok r => rw [answer_of_ok hf hq] at h ⊢; cases h; exact ⟨rfl, rfl⟩

end

theorem exec_db {G : Db → Db → Prop} (refl : ∀ db, G db db)
    (stmt : ∀ (q : Stmt) now scan db r db', q.exec now scan db = .ok (r, db') → G db db') (a : Act) (i : Env)
    (w : World) : G w.db (a.exec i w).2.db := by
  cases a with
  | sql q =>
    show G w.db (q.answer i w.db).2
    cases h : (q.answer i w.db).1 with
    | error e => rw [Stmt.answer_error h]; exact refl _
    | ok r => exact stmt q _ _ _ r _ (Stmt.answer_ok h).2
  | _ => exact refl _

end BackbonePortal
