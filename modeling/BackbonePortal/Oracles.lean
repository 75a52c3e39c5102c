import BackbonePortal.Attempts

/-!
# Two stores, one visitor

What a sequence of attempts for one address tells about the address. Both runs
read the same clock, meet the same failures and ask the same verifier, in the
order in which each of them gets there.
-/

namespace BackbonePortal

open Proc Tables

/-! ## Scripted runs -/

/-- The readings of the clock and the failures of the statements in order, the
verifier's answer, and the draws. -/
structure Script where
  clock : Nat → Instant
  fault : Nat → Option String
  verdict : Option (Except String Bool)
  draws : Env := {}

namespace Script

def env (s : Script) : Env := { s.draws with now := s.clock 0, fault := s.fault 0, verdict := s.verdict }

def tick (s : Script) : Script := { s with clock := fun n => s.clock (n + 1) }

def sent (s : Script) : Script := { s with fault := fun n => s.fault (n + 1) }

def after (s : Script) : Act → Script
  | .now => s.tick
  | .sql _ => s.sent
  | _ => s

/-- Everything happens at one instant, and no statement fails. -/
def timed (t : Instant) (verdict : Option (Except String Bool)) : Script :=
  { clock := fun _ => t, fault := fun _ => none, verdict }

@[simp] theorem timed_tick (t : Instant) (verdict : Option (Except String Bool)) :
    (timed t verdict).tick = timed t verdict := rfl

@[simp] theorem timed_sent (t : Instant) (verdict : Option (Except String Bool)) :
    (timed t verdict).sent = timed t verdict := rfl

@[simp] theorem timed_verdict (t : Instant) (verdict : Option (Except String Bool)) :
    (timed t verdict).verdict = verdict := rfl

end Script

def enact {α : Type} (s : Script) : Verb α → World → Except Halt α × World
  | .ret a, w => (.ok a, w)
  | .fail e, w => (.error e, w)
  | .act a k, w => enact (s.after a) (k (a.exec s.env w).1) (a.exec s.env w).2

theorem enact_is_run {α : Type} (s : Script) (p : Verb α) (w : World) :
    ∃ i, enact s p w = p.run portalMachine i w := by
  induction p generalizing s w with
  | ret a => exact ⟨fun _ => {}, rfl⟩
  | fail e => exact ⟨fun _ => {}, rfl⟩
  | act a k ih =>
    obtain ⟨i, hi⟩ := ih _ (s.after a) (a.exec s.env w).2
    exact ⟨fun n => match n with | 0 => s.env | n + 1 => i n, hi⟩

/-- What an attempt answers, the book it leaves, and no other trace of it in the
principals and the policy. -/
structure Shows {α : Type} (o : Except Halt α) (b : AttemptBook) (w : World)
    (out : Except Halt α × World) : Prop where
  outcome : out.1 = o
  book : out.2.book = b
  users : out.2.db.users = w.db.users
  policies : out.2.db.policies = w.db.policies

/-- The outcome of an audit row under `?`, before a refusal. -/
def audited {α : Type} (fault : Option String) (e : PortalError) : Except Halt α :=
  match fault with
  | some text => .error (.err (.db (.fault text)))
  | none => .error (.err e)

section
variable {P : Portal} {α : Type} {s : Script} {w : World} {o : Except Halt α} {b : AttemptBook}

theorem enact_utcNow {f : Instant → Verb α} :
    enact s (utcNow.bind f) w = enact s.tick (f (s.clock 0)) { w with clock := s.clock 0 } := rfl

theorem enact_checkKey {key : String} {now : Instant} {f : Unit → Verb α} :
    enact s ((checkKey key now).bind f) w =
      match w.book.check key now with
      | .ok _ => enact s (f ()) { w with clock := s.clock 0 }
      | .error e => (.error (.err e), { w with clock := s.clock 0 }) := by
  simp only [checkKey, Prog.bind_act, enact, Act.exec]
  cases w.book.check key now with
  | ok u => rfl
  | error e => rfl

theorem enact_checkNow {key : String} {f : Unit → Verb α} :
    enact s ((checkNow key).bind f) w =
      match w.book.check key (s.clock 0) with
      | .ok _ => enact s.tick (f ()) { w with clock := s.clock 1 }
      | .error e => (.error (.err e), { w with clock := s.clock 1 }) := by
  rw [checkNow, Prog.bind_eq, Prog.bind_assoc, enact_utcNow, enact_checkKey]
  rfl

theorem enact_checkCredential {email presented : String} {f : Option (Except String Bool) → Verb α} :
    enact s ((checkCredential email presented).bind f) w =
      enact s (f s.verdict)
        { w with gate := w.gate ++ [.asked email (s.clock 0) s.verdict], clock := s.clock 0 } := rfl

theorem enact_read {q : Stmt} {r : q.Res} {f : q.Res → Verb α}
    (hq : ∀ now scan, q.exec now scan w.db = .ok (r, w.db)) :
    enact s ((query q).bind f) w =
      match s.fault 0 with
      | some text => (.error (.err (.db (.fault text))), { w with clock := s.clock 0 })
      | none => enact s.sent (f r) { w with clock := s.clock 0 } := by
  cases hf : s.fault 0 with
  | some text =>
    have ha : q.answer s.env w.db = (.error (.fault text), w.db) := Stmt.answer_fault hf
    simp only [query, Prog.bind_act, enact, Act.exec, ha]
    rfl
  | none =>
    have ha : q.answer s.env w.db = (.ok r, w.db) := Stmt.answer_of_ok hf (hq _ _)
    simp only [query, Prog.bind_act, enact, Act.exec, ha]
    rfl

theorem shows_audited (event : AuditEvent) {e : PortalError} :
    Shows (audited (s.fault 0) e) w.book w
      (enact s ((query (.appendAudit event)).bind fun _ => (refuse e : Verb α)) w) := by
  unfold audited
  cases hf : s.fault 0 with
  | some text =>
    have ha : (Stmt.appendAudit event).answer s.env w.db = (.error (.fault text), w.db) := Stmt.answer_fault hf
    simp only [query, Prog.bind_act, enact, Act.exec, ha]
    exact ⟨rfl, rfl, rfl, rfl⟩
  | none =>
    have ha := (appendAudit_answer hf : (Stmt.appendAudit event).answer s.env w.db = _)
    simp only [query, Prog.bind_act, enact, Act.exec, ha]
    exact ⟨rfl, rfl, rfl, rfl⟩

end

/-! ## The login -/

def Db.active (db : Db) (email : String) : Bool := (db.principal email).any fun u => u.status = .active

def Db.inactive (db : Db) (email : String) : Bool := (db.principal email).any fun u => u.status ≠ .active

/-- What a verification sees of the address: only an active principal gets as
far as the verifier. -/
def Db.seen (db : Db) (email : String) (verdict : Option (Except String Bool)) : Option (Except String Bool) :=
  if db.active email then verdict else some (.ok false)

/-- What a verification answers and makes of the book, when it sees no success. -/
def Portal.verificationShows (P : Portal) (email ip : String) (s : Script) (b : AttemptBook)
    (seen : Option (Except String Bool)) : Except Halt (Uuid × String) × AttemptBook :=
  match b.check (P.identityKey email) (s.clock 0) with
  | .error e => (.error (.err e), b)
  | .ok _ =>
    match b.check (ipKey ip) (s.clock 0) with
    | .error e => (.error (.err e), b)
    | .ok _ =>
      match s.fault 0 with
      | some text => (.error (.err (.db (.fault text))), b)
      | none =>
        match seen with
        | some (.ok _) =>
          (audited (s.fault 1) .invalidCredentials,
            (b.registerFailure (P.identityKey email) (s.clock 1)).registerFailure (ipKey ip) (s.clock 2))
        | some (.error e) =>
          (.error (.err (.internal ("verifier: credential verifier internal failure: " ++ e))), b)
        | none => (audited (s.fault 1) .credentialPortNotComposed, b)

section
variable {P : Portal} {s : Script} {w : World} {email : String} (presented ip event : String)

theorem refuseLogin_shows (user : Option Uuid) (idKey ipKey : String) (detail : Json) :
    Shows (α := Uuid × String) (audited (s.fault 0) .invalidCredentials)
      ((w.book.registerFailure idKey (s.clock 0)).registerFailure ipKey (s.clock 1)) w
      (enact s (Portal.refuseLogin user idKey ipKey detail) w) := by
  obtain ⟨houtcome, hbook, husers, hpolicies⟩ :=
    shows_audited (α := Uuid × String) (s := s.tick.tick) (e := .invalidCredentials) _

    (w := { w with
      book := (w.book.registerFailure idKey (s.clock 0)).registerFailure ipKey (s.clock 1),
        clock := s.clock 2 })
  exact ⟨houtcome, hbook, husers, hpolicies⟩

theorem verifyAndMint_shows (hseen : w.db.seen email s.verdict ≠ some (.ok true)) :
    Shows (P.verificationShows email ip s w.book (w.db.seen email s.verdict)).1
      (P.verificationShows email ip s w.book (w.db.seen email s.verdict)).2 w
      (enact s (P.verifyAndMint email presented ip event) w) := by
  have hread : ∀ now scan, (Stmt.liveUserByEmail email).exec now scan w.db =
      .ok ((w.db.principal email).map fun u => (u.id, u.status), w.db) := fun _ _ => rfl
  unfold Portal.verifyAndMint Portal.verificationShows
  dsimp only
  rw [Prog.bind_eq, enact_utcNow, Prog.bind_eq, enact_checkKey]
  dsimp only
  cases hid : w.book.check (P.identityKey email) (s.clock 0) with
  | error e => exact ⟨rfl, rfl, rfl, rfl⟩
  | ok u =>
    dsimp only
    rw [Prog.bind_eq, enact_checkKey]
    dsimp only
    cases hip : w.book.check (ipKey ip) (s.clock 0) with
    | error e => exact ⟨rfl, rfl, rfl, rfl⟩
    | ok u =>
      dsimp only
      rw [Prog.bind_eq, enact_read (w := { w with clock := s.tick.clock 0 }) hread,
        show s.tick.fault 0 = s.fault 0 from rfl]
      cases hf : s.fault 0 with
      | some text => exact ⟨rfl, rfl, rfl, rfl⟩
      | none =>
        have refused : ∀ (user : Option Uuid) (detail : Json) (v : World), v.book = w.book → v.db = w.db →
            Shows (α := Uuid × String) (audited (s.fault 1) .invalidCredentials)
              ((w.book.registerFailure (P.identityKey email) (s.clock 1)).registerFailure
                (ipKey ip) (s.clock 2)) w
              (enact s.tick.sent (Portal.refuseLogin user (P.identityKey email) (ipKey ip) detail) v) := by
          intro user detail v hb hd
          have h := refuseLogin_shows (s := s.tick.sent) (w := v) user (P.identityKey email) (ipKey ip) detail
          exact ⟨h.outcome, hb ▸ h.book, hd ▸ h.users, hd ▸ h.policies⟩
        dsimp only
        unfold Db.seen Db.active at hseen ⊢
        cases hp : w.db.principal email with
        | none => exact refused _ _ _ rfl rfl
        | some u =>
          rw [hp, Option.any_some] at hseen
          rw [Option.any_some]
          dsimp only [Option.map_some]
          by_cases hactive : u.status = .active
          · rw [if_pos (decide_eq_true hactive)] at hseen ⊢
            rw [if_neg (not_not.mpr hactive)]
            rw [Prog.bind_eq, enact_checkCredential, show s.tick.sent.verdict = s.verdict from rfl]
            cases hv : s.verdict with
            | none =>
              have h := shows_audited (α := Uuid × String) (s := s.tick.sent)
                (w := { w with gate := w.gate ++ [.asked email (s.clock 1) none], clock := s.clock 1 })
                (recordAudit "credential_port_not_composed" (some "system") (some u.id) none none
                  (.object [("verb", .str "login")])) (e := .credentialPortNotComposed)
              exact ⟨h.outcome, h.book, h.users, h.policies⟩
            | some r =>
              cases r with
              | error text => exact ⟨rfl, rfl, rfl, rfl⟩
              | ok b =>
                cases b with
                | false => exact refused _ _ _ rfl rfl
                | true => exact absurd hv hseen
          · rw [if_neg fun h => hactive (of_decide_eq_true h), if_pos hactive]
            exact refused _ _ _ rfl rfl

end

def Portal.loginShows (P : Portal) (email ip : String) (s : Script) (b : AttemptBook)
    (seen : Option (Except String Bool)) : Except Halt (Uuid × String) × AttemptBook :=
  if email = "" then (.error (.err .invalidCredentials), b) else P.verificationShows email ip s b seen

/-! ## The signup -/

/-- What a signup under an open policy answers and makes of the book, at one
instant, when the verifier knows no password. -/
def Portal.signupShows (P : Portal) (email ip : String) (t : Instant) (b : AttemptBook) (inactive : Bool) :
    Except Halt (Uuid × String) × AttemptBook :=
  if email = "" ∨ '@' ∉ email.toList then (.error (.err (.invalidInput "a valid email is required")), b)
  else if inactive then (.error (.err .invalidCredentials), b)
  else P.verificationShows email ip (.timed t (some (.ok false))) b (some (.ok false))

section
variable {P : Portal} {α : Type} {s : Script} {w : World} (email presented ip : String) {t : Instant}

theorem login_shows (hseen : w.db.seen (P.normalizeEmail email) s.verdict ≠ some (.ok true)) :
    let out := P.loginShows (P.normalizeEmail email) ip s w.book (w.db.seen (P.normalizeEmail email) s.verdict)
    Shows out.1 out.2 w (enact s (P.login email presented ip) w) := by
  dsimp only
  unfold Portal.login Portal.loginShows
  dsimp only
  by_cases hblank : P.normalizeEmail email = ""
  · rw [if_pos hblank, if_pos hblank]
    exact ⟨rfl, rfl, rfl, rfl⟩
  · rw [if_neg hblank, if_neg hblank]
    exact verifyAndMint_shows _ _ _ hseen

theorem enact_signupOpen {f : Bool → Verb α} (hopen : w.db.SignupOpen) (hs : s.fault 0 = none) :
    enact s (signupOpen.bind f) w = enact s.sent (f true) { w with clock := s.clock 0 } := by
  have ha : (Stmt.policyEnabled).answer s.env w.db = (.ok true, w.db) :=
    Prod.ext (policyEnabled_true.mpr ⟨hs, hopen⟩) policyEnabled_reads
  simp only [signupOpen, trySql, Prog.bind_eq, Prog.bind_act, enact, Act.exec, ha]
  rfl

theorem refusing_shows (event : String) :
    let out := P.verificationShows email ip (.timed t (some (.ok false))) w.book (some (.ok false))
    Shows out.1 out.2 w (enact (.timed t (some (.ok false))) (P.verifyAndMint email presented ip event) w) := by
  have hseen : w.db.seen email (Script.timed t (some (.ok false))).verdict = some (.ok false) := ite_self _
  have h := verifyAndMint_shows (P := P) (s := .timed t (some (.ok false))) (w := w) presented ip event
    (by rw [hseen]; decide)
  rw [hseen] at h
  exact h

theorem signupFresh_shows :
    let out := P.verificationShows email ip (.timed t (some (.ok false))) w.book (some (.ok false))
    Shows out.1 out.2 w (enact (.timed t (some (.ok false))) (P.signupFresh email presented ip) w) := by
  dsimp only
  unfold Portal.signupFresh Portal.verificationShows
  dsimp only
  rw [Prog.bind_eq, enact_checkNow]
  cases hid : w.book.check (P.identityKey email) ((Script.timed t (some (.ok false))).clock 0) with
  | error e => exact ⟨rfl, rfl, rfl, rfl⟩
  | ok u =>
    dsimp only
    rw [Prog.bind_eq, enact_checkNow, Script.timed_tick]
    dsimp only
    cases hip : w.book.check (ipKey ip) ((Script.timed t (some (.ok false))).clock 0) with
    | error e => exact ⟨rfl, rfl, rfl, rfl⟩
    | ok u => exact ⟨rfl, rfl, rfl, rfl⟩

theorem signup_shows (hopen : w.db.SignupOpen) :
    let out := P.signupShows (P.normalizeEmail email) ip t w.book (w.db.inactive (P.normalizeEmail email))
    Shows out.1 out.2 w (enact (.timed t (some (.ok false))) (P.signup email presented ip) w) := by
  have hread : ∀ now scan, (Stmt.liveUserByEmail (P.normalizeEmail email)).exec now scan w.db =
      .ok ((w.db.principal (P.normalizeEmail email)).map fun u => (u.id, u.status), w.db) := fun _ _ => rfl
  dsimp only
  unfold Portal.signup Portal.signupShows
  dsimp only
  by_cases hbad : P.normalizeEmail email = "" ∨ '@' ∉ (P.normalizeEmail email).toList
  · rw [if_pos hbad, if_pos hbad]
    exact ⟨rfl, rfl, rfl, rfl⟩
  rw [if_neg hbad, if_neg hbad, Prog.bind_eq, enact_signupOpen hopen rfl]
  dsimp only
  rw [Prog.bind_eq, enact_read (w := { w with clock := (Script.timed t (some (.ok false))).clock 0 }) hread]
  unfold Db.inactive
  cases hp : w.db.principal (P.normalizeEmail email) with
  | none => exact signupFresh_shows _ _ _
  | some u =>
    by_cases hactive : u.status = .active
    · rw [Option.any_some, if_neg (by simp [hactive])]
      dsimp only [Option.map_some]
      rw [if_neg (not_not.mpr hactive)]
      have h := refusing_shows (P := P) (w := { w with clock := t }) (t := t) (P.normalizeEmail email)
        presented ip "login_succeeded"
      exact ⟨h.outcome, h.book, h.users, h.policies⟩
    · rw [Option.any_some, if_pos (by simp [hactive])]
      dsimp only [Option.map_some]
      rw [if_pos hactive]
      exact ⟨rfl, rfl, rfl, rfl⟩

end

/-! ## Sequences of attempts -/

structure Attempt where
  email : String
  presented : String
  ip : String
  script : Script

/-- The answers of the calls, one after the other, and the world they leave. -/
def Portal.attempts (P : Portal) (door : Door) :
    List Attempt → World → List (Except Halt (Uuid × String)) × World
  | [], w => ([], w)
  | c :: cs, w =>
    let r := enact c.script (P.attempt door c.email c.presented c.ip) w
    let rest := P.attempts door cs r.2
    (r.1 :: rest.1, rest.2)

/-- The calls answer alike from both worlds, and leave the same book. -/
def Portal.Indistinguishable (P : Portal) (door : Door) (calls : List Attempt) (w w' : World) : Prop :=
  (P.attempts door calls w).1 = (P.attempts door calls w').1 ∧
    (P.attempts door calls w).2.book = (P.attempts door calls w').2.book

structure SamePeople (w v : World) : Prop where
  users : v.db.users = w.db.users
  policies : v.db.policies = w.db.policies

theorem SamePeople.refl (w : World) : SamePeople w w := ⟨rfl, rfl⟩

section
variable {P : Portal} {door : Door} {calls : List Attempt} {w w' v : World}

theorem Shows.people {α : Type} {o : Except Halt α} {b : AttemptBook} {out : Except Halt α × World}
    (h : Shows o b v out) (hv : SamePeople w v) : SamePeople w out.2 :=
  ⟨h.users.trans hv.users, h.policies.trans hv.policies⟩

theorem SamePeople.principal (h : SamePeople w v) (email : String) :
    v.db.principal email = w.db.principal email := by
  unfold Db.principal
  rw [h.users]

theorem indistinguishable_of_shows (shown : Attempt → AttemptBook → Except Halt (Uuid × String) × AttemptBook)
    (step : ∀ c ∈ calls, ∀ v, SamePeople w v → Shows (shown c v.book).1 (shown c v.book).2 v
      (enact c.script (P.attempt door c.email c.presented c.ip) v))
    (step' : ∀ c ∈ calls, ∀ v, SamePeople w' v → Shows (shown c v.book).1 (shown c v.book).2 v
      (enact c.script (P.attempt door c.email c.presented c.ip) v))
    (hbook : w.book = w'.book) : P.Indistinguishable door calls w w' := by
  have run : ∀ (cs : List Attempt) (v v' : World), (∀ c ∈ cs, c ∈ calls) → SamePeople w v → SamePeople w' v' →
      v.book = v'.book → P.Indistinguishable door cs v v' := by
    intro cs
    induction cs with
    | nil => exact fun v v' _ _ _ hb => ⟨rfl, hb⟩
    | cons c cs ih =>
      intro v v' hcs hv hv' hb
      have h := step c (hcs c List.mem_cons_self) v hv
      have h' := step' c (hcs c List.mem_cons_self) v' hv'
      rw [← hb] at h'
      obtain ⟨hanswers, hbooks⟩ :=
        ih _ _ (fun d hd => hcs d (List.mem_cons_of_mem c hd)) (h.people hv) (h'.people hv')
        (h.book.trans h'.book.symm)
      exact ⟨congrArg₂ List.cons (h.outcome.trans h'.outcome.symm) hanswers, hbooks⟩
  exact run calls w w' (fun _ h => h) (.refl w) (.refl w') hbook

end

theorem signupShows_inactive {P : Portal} {email ip : String} {t : Instant} {b : AttemptBook} {x y : Bool}
    (h : (email = "" ∨ '@' ∉ email.toList) ∨ x = y) :
    P.signupShows email ip t b x = P.signupShows email ip t b y := by
  rcases h with h | rfl
  · unfold Portal.signupShows
    rw [if_pos h, if_pos h]
  · rfl

theorem signupShows_tells {P : Portal} {email ip : String} {t : Instant}
    (h : ¬(email = "" ∨ '@' ∉ email.toList)) :
    (P.signupShows email ip t .empty true).2 ≠ (P.signupShows email ip t .empty false).2 := by
  have hbooked : (P.signupShows email ip t .empty false).2 =
      (AttemptBook.empty.registerFailure (P.identityKey email) t).registerFailure (ipKey ip) t := by
    unfold Portal.signupShows
    rw [if_neg h]
    rfl
  have hunbooked : (P.signupShows email ip t .empty true).2 = .empty := by
    unfold Portal.signupShows
    rw [if_neg h]
    rfl
  rw [hbooked, hunbooked]
  intro he
  have hentry := congrArg (fun b => b.entries (ipKey ip)) he
  simp only [AttemptBook.registerFailure, AttemptBook.put_self] at hentry
  cases hentry

/-- **When open signup is no account-status oracle.** From two worlds with open
signup, timed signups for an address that the verifier refuses are answered
alike, whatever the book, if and only if the address is not one, or has a live
principal that is not active in both or in neither. -/
theorem signup_oracle_iff (P : Portal) (email : String) (w w' : World) (hopen : w.db.SignupOpen)
    (hopen' : w'.db.SignupOpen) :
    (∀ (book : AttemptBook) (calls : List Attempt),
      (∀ c ∈ calls, P.normalizeEmail c.email = P.normalizeEmail email ∧
        ∃ t, c.script = .timed t (some (.ok false))) →
      P.Indistinguishable .signup calls { w with book } { w' with book }) ↔
      (P.normalizeEmail email = "" ∨ '@' ∉ (P.normalizeEmail email).toList) ∨
        w.db.inactive (P.normalizeEmail email) = w'.db.inactive (P.normalizeEmail email) := by
  constructor
  · intro h
    rw [or_iff_not_imp_left]
    intro haddress
    let c : Attempt := ⟨email, "", "", .timed 0 (some (.ok false))⟩
    have hbooks := (h .empty [c] fun d hd => by cases List.mem_singleton.mp hd; exact ⟨rfl, 0, rfl⟩).2
    have hw := (signup_shows (P := P) (w := { w with book := .empty }) (t := 0) email "" ""
      hopen).book
    have hw' := (signup_shows (P := P) (w := { w' with book := .empty }) (t := 0) email "" ""
      hopen').book
    have hshown := hw.symm.trans (hbooks.trans hw')
    dsimp only at hshown
    cases hx : w.db.inactive (P.normalizeEmail email) <;> cases hy : w'.db.inactive (P.normalizeEmail email)
    · rfl
    · rw [hx, hy] at hshown
      exact absurd hshown.symm (signupShows_tells haddress)
    · rw [hx, hy] at hshown
      exact absurd hshown (signupShows_tells haddress)
    · rfl
  · intro hsame book calls hcalls
    let shown (u : World) (c : Attempt) (b : AttemptBook) : Except Halt (Uuid × String) × AttemptBook :=
      P.signupShows (P.normalizeEmail email) c.ip (c.script.clock 0) b (u.db.inactive (P.normalizeEmail email))
    have step : ∀ (u : World) (c : Attempt), u.db.SignupOpen → c ∈ calls → ∀ v, SamePeople u v →
        let out := shown u c v.book
        Shows out.1 out.2 v (enact c.script (P.attempt .signup c.email c.presented c.ip) v) := by
      intro u c hu hc v hv
      obtain ⟨hemail, t, ht⟩ := hcalls c hc
      have hinactive : u.db.inactive (P.normalizeEmail email) = v.db.inactive (P.normalizeEmail email) := by
        unfold Db.inactive
        rw [hv.principal]
      have hv' : v.db.SignupOpen := by
        unfold Db.SignupOpen
        rw [hv.policies]
        exact hu
      have h := signup_shows (P := P) (t := t) c.email c.presented c.ip hv'
      simp only [hemail] at h
      simp only [shown, hinactive, ht]
      exact h
    refine indistinguishable_of_shows (shown w) (fun c hc => step { w with book } c hopen hc)
      (fun c hc v hv => ?_) rfl
    have h := step { w' with book } c hopen' hc v hv
    simp only [shown] at h ⊢
    rw [signupShows_inactive hsame]
    exact h

namespace Probe

def guess (verdict : Option (Except String Bool)) (t : Instant) : Attempt :=
  ⟨email, "guess", "10.0.0.1", .timed t verdict⟩

end Probe

/-- Two signups tell a revoked principal from a vacant address: the second is
throttled for the vacant one only. -/
theorem second_signup_tells :
    let calls := [Probe.guess (some (.ok false)) Probe.now, Probe.guess (some (.ok false)) Probe.now]
    (Probe.portal.attempts .signup calls (Probe.world Probe.shut)).1 =
      [.error (.err .invalidCredentials), .error (.err .invalidCredentials)] ∧
    (Probe.portal.attempts .signup calls (Probe.world Probe.opened)).1 =
      [.error (.err .invalidCredentials), .error (.err (.rateLimited 1))] ∧
    ¬Probe.portal.Indistinguishable .signup calls (Probe.world Probe.shut) (Probe.world Probe.opened) := by
  have hrun : (Probe.portal.attempts .signup [Probe.guess (some (.ok false)) Probe.now,
        Probe.guess (some (.ok false)) Probe.now] (Probe.world Probe.shut)).1 =
      [.error (.err .invalidCredentials), .error (.err .invalidCredentials)] ∧
    (Probe.portal.attempts .signup [Probe.guess (some (.ok false)) Probe.now,
        Probe.guess (some (.ok false)) Probe.now] (Probe.world Probe.opened)).1 =
      [.error (.err .invalidCredentials), .error (.err (.rateLimited 1))] := by decide +kernel
  refine ⟨hrun.1, hrun.2, fun h => ?_⟩
  have hanswers := h.1
  rw [hrun.1, hrun.2] at hanswers
  cases hanswers

theorem signup_oracle_iff_probe :
    let calls : List Attempt :=
      [⟨"second@example.com", "guess", "10.0.0.1", .timed Probe.now (some (.ok false))⟩]
    Probe.portal.Indistinguishable .signup calls { Probe.world Probe.shut with book := .empty }
      { Probe.world Probe.opened with book := .empty } :=
  (signup_oracle_iff Probe.portal "second@example.com" (Probe.world Probe.shut) (Probe.world Probe.opened)
    ⟨_, .head _, rfl, rfl⟩ ⟨_, .head _, rfl, rfl⟩).mpr (.inr (by decide +kernel)) .empty _
    fun c hc => by cases List.mem_singleton.mp hc; exact ⟨rfl, Probe.now, rfl⟩

end BackbonePortal
