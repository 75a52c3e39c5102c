import BackbonePortal.Attempts
import BackbonePortal.Sections

/-!
# The throttle among concurrent logins

How far apart the refused verifier calls of an identity start. A login reads the
book before it calls the verifier and writes it after the answer, so spacing and
lockout bind the logins of an identity as long as none of them passes the check
while another is between the two.
-/

namespace BackbonePortal

open Proc

/-! ## The logins -/

structure LoginCall where
  email : String
  presented : String
  ip : String

def Portal.serveLogin (P : Portal) (c : LoginCall) : Verb (Uuid × String) := P.login c.email c.presented c.ip

def Portal.noteFailure (P : Portal) (key : String) (starts : List Instant) : GateEvent → List Instant
  | .asked email start (some (.ok false)) => if P.identityKey email = key then starts ++ [start] else starts
  | .asked _ _ _ => starts
  | .cleared k => if k = key then [] else starts

/-- The starts of the identity's refused verifier calls since its counter was last reset. -/
def Portal.failedStarts (P : Portal) (key : String) (gate : List GateEvent) : List Instant :=
  gate.foldl (P.noteFailure key) []

/-- Any two are a second apart, and from the fifth on the next waits out the lockout. -/
structure Spaced (starts : List Instant) : Prop where
  spacing : starts.Pairwise fun s t => s + seconds 1 ≤ t
  lockout : ∀ n s t, 5 ≤ n → starts[n - 1]? = some s → starts[n]? = some t →
    s + seconds (min (30 * 2 ^ (n - 5)) 900) ≤ t

theorem failedStarts_append (P : Portal) (key : String) (gate : List GateEvent) (ev : GateEvent) :
    P.failedStarts key (gate ++ [ev]) = P.noteFailure key (P.failedStarts key gate) ev := by
  rw [Portal.failedStarts, List.foldl_append]
  rfl

theorem spaced_nil : Spaced [] := ⟨.nil, fun _ _ _ _ h => nomatch h⟩

theorem Spaced.append {starts : List Instant} {t : Instant} (h : Spaced starts)
    (hspacing : ∀ s ∈ starts, s + seconds 1 ≤ t)
    (hlockout : 5 ≤ starts.length → ∀ s ∈ starts, s + seconds (min (30 * 2 ^ (starts.length - 5)) 900) ≤ t) :
    Spaced (starts ++ [t]) := by
  constructor
  · refine List.pairwise_append.mpr ⟨h.spacing, List.pairwise_singleton _ _, fun s hs u hu => ?_⟩
    rw [List.mem_singleton.mp hu]
    exact hspacing s hs
  · intro n s u hn hs hu
    rcases Nat.lt_trichotomy n starts.length with hlt | heq | hgt
    · rw [List.getElem?_append_left (by omega)] at hs
      rw [List.getElem?_append_left hlt] at hu
      exact h.lockout n s u hn hs hu
    · subst heq
      rw [List.getElem?_append_left (by omega)] at hs
      rw [List.getElem?_append_right (Nat.le_refl _), Nat.sub_self] at hu
      cases hu
      exact hlockout hn s (List.mem_of_getElem? hs)
    · rw [List.getElem?_eq_none (by rw [List.length_append, List.length_singleton]; omega)] at hu
      cases hu

/-! ## The lockout curve -/

theorem le_lockSeconds {n : Nat} {failures : Int} (hn : 5 ≤ n) (h : (n : Int) ≤ failures) :
    min (30 * 2 ^ (n - 5)) 900 ≤ lockSeconds failures := by
  unfold lockSeconds attemptLockBaseSeconds attemptLockCapSeconds attemptMaxFailures
  have hle : n - 5 ≤ (failures - 5).toNat := by omega
  rcases Nat.le_total (failures - 5).toNat 16 with hcap | hcap
  · rw [Nat.min_eq_left hcap]
    have hpow : (2 : Int) ^ (n - 5) ≤ 2 ^ (failures - 5).toNat := by
      exact_mod_cast Nat.pow_le_pow_right (Nat.zero_lt_two) hle
    omega
  · rw [Nat.min_eq_right hcap]
    omega

theorem FailureEntry.check_ok {e : FailureEntry} {now : Instant} (h : e.check now = .ok ()) :
    (∀ u, e.lockedUntil = some u → u ≤ now) ∧ ∀ last, e.lastAttempt = some last → last + seconds 1 ≤ now := by
  obtain ⟨hlocked, hlast⟩ := check_ok_iff.mp h
  exact ⟨hlocked, fun last hl => Int.add_le_of_le_sub_left (hlast last hl)⟩

/-! ## The book and the verifier -/

section
variable (P : Portal) (key : String)

/-- The book counts every refused call and stamps them all. -/
structure World.Booked (w : World) : Prop where
  counted : ((P.failedStarts key w.gate).length : Int) ≤ w.book.failures key
  stamped : ∀ s ∈ P.failedStarts key w.gate, ∃ e last, w.book.entries key = some e ∧ e.lastAttempt = some last ∧
    s ≤ last ∧ e.lockedUntil = lockoutUntil e.failures last

/-- The bound, and that no start lies ahead of the clock. -/
structure World.Fair (w : World) : Prop where
  spaced : Spaced (P.failedStarts key w.gate)
  past : ∀ s ∈ P.failedStarts key w.gate, s ≤ w.clock

/-- Nothing of the identity has moved, and the clock has not gone back. -/
structure World.Same (w w' : World) : Prop where
  starts : P.failedStarts key w'.gate = P.failedStarts key w.gate
  entry : w'.book.entries key = w.book.entries key
  clock : w.clock ≤ w'.clock

variable {P key} {w w' : World}

theorem World.Same.failures (h : w.Same P key w') : w'.book.failures key = w.book.failures key := by
  rw [AttemptBook.failures, h.entry, ← AttemptBook.failures]

theorem World.Same.check (h : w.Same P key w') (t : Instant) : w'.book.check key t = w.book.check key t := by
  rw [AttemptBook.check, h.entry, ← AttemptBook.check]

theorem World.Booked.later (hw : w.Booked P key) (h : w.Same P key w') : w'.Booked P key := by
  obtain ⟨hcounted, hstamped⟩ := hw
  refine ⟨?_, ?_⟩
  · rw [h.starts, h.failures]
    exact hcounted
  · rw [h.starts, h.entry]
    exact hstamped

theorem World.Fair.later (hw : w.Fair P key) (h : w.Same P key w') : w'.Fair P key := by
  refine ⟨?_, ?_⟩
  · rw [h.starts]
    exact hw.spaced
  · rw [h.starts]
    exact fun s hs => Int.le_trans (hw.past s hs) h.clock

theorem World.Booked.entry_checked {e : FailureEntry} {t : Instant} (he : w.book.entries key = some e)
    (hcheck : w.book.check key t = .ok ()) : e.check t = .ok () := by
  rw [AttemptBook.check, he] at hcheck
  exact hcheck

theorem World.Booked.behind (hw : w.Booked P key) {t : Instant} (hcheck : w.book.check key t = .ok ()) :
    ∀ s ∈ P.failedStarts key w.gate, s + seconds 1 ≤ t := by
  intro s hs
  obtain ⟨e, last, he, hlast, hle, -⟩ := hw.stamped s hs
  have hspacing := (FailureEntry.check_ok (entry_checked he hcheck)).2 last hlast
  exact Int.le_trans (Int.add_le_add_right hle _) hspacing

theorem World.Booked.locked (hw : w.Booked P key) {t : Instant} (hcheck : w.book.check key t = .ok ())
    (hn : 5 ≤ (P.failedStarts key w.gate).length) : ∀ s ∈ P.failedStarts key w.gate,
      s + seconds (min (30 * 2 ^ ((P.failedStarts key w.gate).length - 5)) 900) ≤ t := by
  intro s hs
  obtain ⟨e, last, he, -, hle, hlocked⟩ := hw.stamped s hs
  have hfailures : ((P.failedStarts key w.gate).length : Int) ≤ e.failures := by
    have := hw.counted
    rw [AttemptBook.failures, he] at this
    exact this
  have huntil : last + seconds (lockSeconds e.failures) ≤ t := by
    refine (FailureEntry.check_ok (entry_checked he hcheck)).1 _ ?_
    rw [hlocked, lockoutUntil, if_neg (by unfold attemptMaxFailures; omega)]
  exact Int.le_trans (Int.add_le_add hle (seconds_mono (le_lockSeconds hn hfailures))) huntil

theorem World.Booked.admits (hw : w.Booked P key) {t start : Instant} (hcheck : w.book.check key t = .ok ())
    (hstart : t ≤ start) (hspaced : Spaced (P.failedStarts key w.gate)) :
    Spaced (P.failedStarts key w.gate ++ [start]) :=
  hspaced.append (fun s hs => Int.le_trans (hw.behind hcheck s hs) hstart)
    fun hn s hs => Int.le_trans (hw.locked hcheck hn s hs) hstart

theorem World.booked_register {t : Instant} (hstarts : P.failedStarts key w'.gate = P.failedStarts key w.gate)
    (hbook : w'.book = w.book.registerFailure key t) (hfits : w.book.Counts key)
    (hcounted : ((P.failedStarts key w.gate).length : Int) ≤ w.book.failures key + 1)
    (hstamp : ∀ s ∈ P.failedStarts key w.gate, s ≤ t) : w'.Booked P key := by
  refine ⟨?_, fun s hs => ?_⟩
  · rw [hstarts, hbook, AttemptBook.failures_registerFailure, wrapI32_eq_self.mpr hfits]
    exact hcounted
  · rw [hstarts] at hs
    rw [hbook, AttemptBook.registerFailure, AttemptBook.put_self]
    exact ⟨_, t, rfl, rfl, hstamp s hs, rfl⟩

theorem World.booked_reset (hstarts : P.failedStarts key w.gate = [])
    (hentry : w.book.entries key = none) : w.Booked P key := by
  refine ⟨?_, ?_⟩
  · rw [hstarts, AttemptBook.failures, hentry]
    exact Int.le_refl _
  · rw [hstarts]
    exact fun s hs => nomatch hs

end

/-! ## Between the check and the book -/

/-- Where a login of the identity is: not between its check and the book, admitted
at a reading, or refused by the verifier and yet to be registered. -/
inductive Stage where
  | outside
  | admitted (reading : Instant)
  | refused
deriving DecidableEq

structure LoginState where
  stage : Stage
  /-- The last reading of the clock, until the verifier is called. -/
  reading : Option Instant

section
variable (P : Portal) (key : String)

def Portal.loginNext (s : LoginState) : Event portalSig → LoginState
  | ⟨.now, t⟩ => { s with reading := some t }
  | ⟨.check k t, .ok ()⟩ => if k = key then { s with stage := .admitted t } else s
  | ⟨.verify email _, some (.ok false)⟩ => if P.identityKey email = key then ⟨.refused, none⟩ else s
  | ⟨.registerFailure k _, _⟩ => if k = key then { s with stage := .outside } else s
  | ⟨.reset k, _⟩ => if k = key then { s with stage := .outside } else s
  | _ => s

def Portal.loginAllows (s : LoginState) : Act → Prop
  | .check k t => k = key → s.stage = .outside ∧ s.reading = some t
  | .verify email _ => P.identityKey email = key → ∃ t, s.stage = .admitted t
  | .registerFailure k t => k = key → s.stage ≠ .outside ∧ s.reading = some t
  | .reset k => k = key → ∃ t, s.stage = .admitted t
  | _ => True

def Portal.loginSection : Section portalSig LoginState where
  start := ⟨.outside, none⟩
  next := P.loginNext key
  inside s := s.stage ≠ .outside
  allows := P.loginAllows key
  final s := s.stage ≠ .refused

inductive LoginStep (now : Instant) (w w' : World) : LoginState → LoginState → Prop
  | stay {s} (same : w.Same P key w') : LoginStep now w w' s s
  | read {s} (same : w.Same P key w') : LoginStep now w w' s { s with reading := some now }
  | enter {t} (same : w.Same P key w') (check : w.book.check key t = .ok ()) :
    LoginStep now w w' ⟨.outside, some t⟩ ⟨.admitted t, some t⟩
  | refuse {t r} (starts : P.failedStarts key w'.gate = P.failedStarts key w.gate ++ [now])
    (entry : w'.book.entries key = w.book.entries key) : LoginStep now w w' ⟨.admitted t, r⟩ ⟨.refused, none⟩
  | register {stage t} (inside : stage ≠ .outside)
    (starts : P.failedStarts key w'.gate = P.failedStarts key w.gate)
    (book : w'.book = w.book.registerFailure key t) (fits : w.book.Counts key) :
    LoginStep now w w' ⟨stage, some t⟩ ⟨.outside, some t⟩
  | reset {t r} (starts : P.failedStarts key w'.gate = []) (entry : w'.book.entries key = none) :
    LoginStep now w w' ⟨.admitted t, r⟩ ⟨.outside, r⟩

end

section
variable {P : Portal} {key : String} {i : Env} {w : World} {s : LoginState} {a : Act}

/-- The clock goes on, and a registered failure fits its counter. -/
def LoginOk (key : String) (a : Act) (i : Env) (w : World) : Prop :=
  w.clock ≤ i.now ∧ ∀ t, a = .registerFailure key t → w.book.Counts key

theorem noteFailure_refused {email : String} {v : Option (Except String Bool)}
    {t : Instant} {starts : List Instant}
    (hkey : P.identityKey email = key) (hv : v = some (.ok false)) :
    P.noteFailure key starts (.asked email t v) = starts ++ [t] := by
  subst hv
  exact if_pos hkey

theorem noteFailure_asked {email : String} {v : Option (Except String Bool)} {t : Instant}
    {starts : List Instant}
    (h : ¬(P.identityKey email = key ∧ v = some (.ok false))) :
    P.noteFailure key starts (.asked email t v) = starts := by
  unfold Portal.noteFailure
  split
  next heq =>
    cases heq
    exact if_neg fun hkey => h ⟨hkey, rfl⟩
  next heq => cases heq; rfl
  next heq => cases heq

theorem loginNext_refused {email presented : String} {v : Option (Except String Bool)}
    (hkey : P.identityKey email = key) (hv : v = some (.ok false)) :
    P.loginNext key s ⟨.verify email presented, v⟩ = ⟨.refused, none⟩ := by
  subst hv
  exact if_pos hkey

theorem loginNext_asked {email presented : String} {v : Option (Except String Bool)}
    (h : ¬(P.identityKey email = key ∧ v = some (.ok false))) :
    P.loginNext key s ⟨.verify email presented, v⟩ = s := by
  match v, h with
  | some (.ok false), h => exact if_neg fun hkey => h ⟨hkey, rfl⟩
  | some (.ok true), _ => rfl
  | some (.error e), _ => rfl
  | none, _ => rfl

theorem loginStep (hs : P.loginAllows key s a) (hok : LoginOk key a i w) :
    LoginStep P key i.now w (a.exec i w).2 s (P.loginNext key s ⟨a, (a.exec i w).1⟩) := by
  obtain ⟨hclock, hfits⟩ := hok
  obtain ⟨stage, reading⟩ := s
  have same : ∀ w' : World, w'.gate = w.gate → w'.book = w.book → w'.clock = i.now → w.Same P key w' := by
    intro w' hg hb hc
    exact ⟨by rw [hg], by rw [hb], by rw [hc]; exact hclock⟩
  cases a with
  | sql q => exact .stay (same _ rfl rfl rfl)
  | newUuid | mintNonce => exact .stay (same _ rfl rfl rfl)
  | now => exact .read (same _ rfl rfl rfl)
  | verify email presented =>
    have hgate : P.failedStarts key (w.gate ++ [.asked email i.now i.verdict]) = _ :=
      failedStarts_append P key _ _
    by_cases h : P.identityKey email = key ∧ i.verdict = some (.ok false)
    · obtain ⟨hkey, hv⟩ := h
      obtain ⟨t, ht⟩ := hs hkey
      cases ht
      simp only [Act.exec, loginNext_refused hkey hv]
      exact .refuse (by rw [hgate, noteFailure_refused hkey hv]) rfl
    · simp only [Act.exec, loginNext_asked h]
      exact .stay ⟨by rw [hgate, noteFailure_asked h], rfl, hclock⟩
  | check k t =>
    by_cases hkey : k = key
    · subst hkey
      obtain ⟨rfl, rfl⟩ := hs rfl
      cases hc : w.book.check k t with
      | ok u =>
        simp only [Act.exec, hc, Portal.loginNext, if_true]
        exact .enter (same _ rfl rfl rfl) hc
      | error e =>
        simp only [Act.exec, hc, Portal.loginNext]
        exact .stay (same _ rfl rfl rfl)
    · cases hc : w.book.check k t with
      | ok u =>
        simp only [Act.exec, hc, Portal.loginNext, if_neg hkey]
        exact .stay (same _ rfl rfl rfl)
      | error e =>
        simp only [Act.exec, hc, Portal.loginNext]
        exact .stay (same _ rfl rfl rfl)
  | registerFailure k t =>
    by_cases hkey : k = key
    · subst hkey
      obtain ⟨hinside, rfl⟩ := hs rfl
      simp only [Act.exec, Portal.loginNext, if_true]
      exact .register hinside rfl rfl (hfits t rfl)
    · simp only [Act.exec, Portal.loginNext, if_neg hkey]
      exact .stay ⟨rfl, AttemptBook.put_other _ (Ne.symm hkey) _, hclock⟩
  | reset k =>
    have hgate : P.failedStarts key (w.gate ++ [.cleared k]) = _ := failedStarts_append P key _ _
    by_cases hkey : k = key
    · subst hkey
      obtain ⟨t, rfl⟩ := hs rfl
      simp only [Act.exec, Portal.loginNext, if_true]
      exact .reset (by rw [hgate, Portal.noteFailure, if_pos rfl]) (AttemptBook.put_self _ _ _)
    · simp only [Act.exec, Portal.loginNext, if_neg hkey]
      exact .stay
        ⟨by rw [hgate, Portal.noteFailure, if_neg hkey], AttemptBook.put_other _ (Ne.symm hkey) _, hclock⟩

theorem enters_by_check (hs : P.loginAllows key s a) (hout : s.stage = .outside)
    (hin : (P.loginNext key s ⟨a, (a.exec i w).1⟩).stage ≠ .outside) :
    ∃ t, a = .check key t ∧ w.book.check key t = .ok () := by
  cases a with
  | sql | newUuid | mintNonce | now => exact absurd hout hin
  | verify email presented =>
    by_cases h : P.identityKey email = key
    · obtain ⟨t, ht⟩ := hs h
      cases hout.symm.trans ht
    · simp only [loginNext_asked fun hk => h hk.1] at hin
      exact absurd hout hin
  | check k t =>
    cases hc : w.book.check k t with
    | ok u =>
      by_cases hk : k = key
      · subst hk
        exact ⟨t, rfl, hc⟩
      · simp only [Act.exec, hc, Portal.loginNext, if_neg hk] at hin
        exact absurd hout hin
    | error e =>
      simp only [Act.exec, hc, Portal.loginNext] at hin
      exact absurd hout hin
  | registerFailure k t =>
    by_cases hk : k = key
    · exact absurd hout (hs hk).1
    · simp only [Portal.loginNext, if_neg hk] at hin
      exact absurd hout hin
  | reset k =>
    by_cases hk : k = key
    · obtain ⟨t, ht⟩ := hs hk
      cases hout.symm.trans ht
    · simp only [Portal.loginNext, if_neg hk] at hin
      exact absurd hout hin

structure World.Holds (P : Portal) (key : String) (s : LoginState) (w : World) : Prop where
  read : ∀ t, s.reading = some t → t ≤ w.clock
  admitted : ∀ t, s.stage = .admitted t → t ≤ w.clock ∧ w.Booked P key ∧ w.book.check key t = .ok ()
  counted : s.stage ≠ .outside → ((P.failedStarts key w.gate).length : Int) ≤ w.book.failures key + 1
  fresh : s.stage ≠ .outside → ∀ t, s.reading = some t → ∀ x ∈ P.failedStarts key w.gate, x ≤ t

theorem World.Holds.later {w' : World} (hw : w.Holds P key s) (h : w.Same P key w') : w'.Holds P key s := by
  refine ⟨fun t ht => Int.le_trans (hw.read t ht) h.clock, fun t ht => ?_, ?_, ?_⟩
  · obtain ⟨hle, hbooked, hcheck⟩ := hw.admitted t ht
    exact ⟨Int.le_trans hle h.clock, hbooked.later h, by rw [h.check]; exact hcheck⟩
  · rw [h.starts, h.failures]
    exact hw.counted
  · rw [h.starts]
    exact hw.fresh

theorem World.holds_outside {r : Option Instant} (h : ∀ t, r = some t → t ≤ w.clock) :
    w.Holds P key ⟨.outside, r⟩ :=
  ⟨h, fun _ ht => (nomatch ht), fun ho => absurd rfl ho, fun ho => absurd rfl ho⟩

theorem outside_same (hs : P.loginAllows key s a) (hok : LoginOk key a i w) (hout : s.stage = .outside) :
    w.Same P key (a.exec i w).2 := by
  have hstep := loginStep hs hok
  generalize P.loginNext key s ⟨a, (a.exec i w).1⟩ = s' at hstep
  cases hstep with
  | stay same => exact same
  | read same => exact same
  | enter same _ => exact same
  | refuse => cases hout
  | register inside => exact absurd hout inside
  | reset => cases hout

theorem exec_clock (a : Act) (i : Env) (w : World) : (a.exec i w).2.clock = i.now := by
  cases a <;> rfl

theorem login_own (hs : P.loginAllows key s a) (hok : LoginOk key a i w) (hfair : w.Fair P key)
    (hheld : w.Holds P key s)
    (hfree : s.stage = .outside → (P.loginNext key s ⟨a, (a.exec i w).1⟩).stage ≠ .outside → w.Booked P key) :
    World.Holds P key (P.loginNext key s ⟨a, (a.exec i w).1⟩) (a.exec i w).2 := by
  have hclock := exec_clock a i w
  have hle := hok.1
  have hstep := loginStep hs hok
  generalize P.loginNext key s ⟨a, (a.exec i w).1⟩ = s' at hstep hfree
  generalize (a.exec i w).2 = w' at hstep hclock
  cases hstep with
  | stay same => exact hheld.later same
  | read same =>
    have hlater := hheld.later same
    refine ⟨fun t ht => ?_, hlater.admitted, hlater.counted, fun _ t ht x hx => ?_⟩
    · cases ht
      exact Int.le_of_eq hclock.symm
    · cases ht
      rw [same.starts] at hx
      exact Int.le_trans (hfair.past x hx) hle
  | @enter t same check =>
    have hbooked := hfree rfl (fun h => nomatch h)
    have hread := Int.le_trans (hheld.read t rfl) same.clock
    refine ⟨fun _ ht => by cases ht; exact hread, fun _ ht => ?_, fun _ => ?_, fun _ _ ht x hx => ?_⟩
    · cases ht
      exact ⟨hread, hbooked.later same, by rw [same.check]; exact check⟩
    · have := (hbooked.later same).counted
      omega
    · cases ht
      rw [same.starts] at hx
      have hbehind := hbooked.behind check x hx
      exact Int.le_trans (Int.le_add_of_nonneg_right (by decide)) hbehind
  | refuse starts entry =>
    obtain ⟨-, hbooked, -⟩ := hheld.admitted _ rfl
    refine ⟨fun _ ht => (nomatch ht), fun _ ht => (nomatch ht), fun _ => ?_, fun _ _ ht => nomatch ht⟩
    rw [starts, AttemptBook.failures, entry, ← AttemptBook.failures, List.length_append, List.length_singleton]
    have := hbooked.counted
    omega
  | register inside starts book fits =>
    exact World.holds_outside fun t ht => by rw [hclock]; exact Int.le_trans (hheld.read t ht) hle
  | reset starts entry =>
    exact World.holds_outside fun t ht => by rw [hclock]; exact Int.le_trans (hheld.read t ht) hle

theorem login_lends (P : Portal) (key : String) :
    (P.loginSection key).Lends portalMachine (LoginOk key) (World.Booked P key)
    (World.Fair P key) (World.Holds P key) := by
  refine ⟨fun w => World.holds_outside fun t ht => (nomatch ht), ?_, ?_, ?_, ?_, ?_, ?_⟩
  · intro s a i w hs hok hfair hheld hfree
    exact login_own hs hok hfair hheld fun hout hin =>
      hfree (by simpa [Portal.loginSection] using hout) (by simpa [Portal.loginSection] using hin)
  · intro s a i w hs hok hheld hin hout
    simp only [Portal.loginSection, decide_eq_true_eq, decide_eq_false_iff_not, not_not] at hin hout
    have hstep := loginStep hs hok
    generalize P.loginNext key s ⟨a, (a.exec i w).1⟩ = s' at hstep hout
    cases hstep with
    | stay => exact absurd hout hin
    | read => exact absurd hout hin
    | enter => cases hout
    | refuse => cases hout
    | register inside starts book fits =>
      exact World.booked_register starts book fits (hheld.counted inside) (hheld.fresh inside _ rfl)
    | reset starts entry => exact World.booked_reset starts entry
  · intro s a i w hs hok hout
    simp only [Portal.loginSection, decide_eq_false_iff_not, not_not] at hout
    have hsame := outside_same hs hok hout
    exact ⟨fun h => h.later hsame, fun s' h => h.later hsame⟩
  · intro s a i w hok hout hheld
    simp only [Portal.loginSection, decide_eq_false_iff_not, not_not] at hout
    obtain ⟨stage, reading⟩ := s
    cases hout
    exact World.holds_outside fun t ht => by rw [exec_clock]; exact Int.le_trans (hheld.read t ht) hok.1
  · intro s w hfinal hin hheld
    simp only [Portal.loginSection, decide_eq_true_eq] at hfinal hin
    cases hs : s.stage with
    | outside => exact absurd hs hin
    | refused => exact absurd hs hfinal
    | admitted t => exact (hheld.admitted t hs).2.1
  · intro s a i w hs hok hheld hfair
    have hclock := exec_clock a i w
    have hstep := loginStep hs hok
    generalize P.loginNext key s ⟨a, (a.exec i w).1⟩ = s' at hstep
    generalize (a.exec i w).2 = w' at hstep hclock
    cases hstep with
    | stay same => exact hfair.later same
    | read same => exact hfair.later same
    | enter same _ => exact hfair.later same
    | refuse starts entry =>
      obtain ⟨hle, hbooked, hcheck⟩ := hheld.admitted _ rfl
      refine ⟨?_, fun x hx => ?_⟩
      · rw [starts]
        exact hbooked.admits hcheck (Int.le_trans hle hok.1) hfair.spaced
      · rw [starts] at hx
        rw [hclock]
        rcases List.mem_append.mp hx with hx | hx
        · exact Int.le_trans (hfair.past x hx) hok.1
        · exact Int.le_of_eq (List.mem_singleton.mp hx)
    | register inside starts book fits =>
      refine ⟨by rw [starts]; exact hfair.spaced, fun x hx => ?_⟩
      rw [starts] at hx
      rw [hclock]
      exact Int.le_trans (hfair.past x hx) hok.1
    | reset starts entry =>
      exact ⟨by rw [starts]; exact spaced_nil, by rw [starts]; exact fun _ hx => nomatch hx⟩

end

/-! ## The logins obey -/

def Act.Elsewhere (P : Portal) (key : String) : Act → Prop
  | .check k _ | .registerFailure k _ | .reset k => k ≠ key
  | .verify email _ => P.identityKey email ≠ key
  | _ => True

section
variable {P : Portal} {key : String} {α : Type}

theorem Act.Mints.elsewhere {a : Act} (h : a.Mints) : a.Elsewhere P key := by
  cases a with
  | sql q => trivial
  | newUuid | mintNonce | now => trivial
  | _ => exact h.elim

theorem registerNow_elsewhere {k : String} (h : k ≠ key) : (registerNow k).All (Act.Elsewhere P key) :=
  .bind (all_step trivial) fun _ => all_step h

theorem audit_elsewhere {action actor : String} {user invite token : Option Uuid} {detail : Json} :
    (audit action user invite token actor detail).All (Act.Elsewhere P key) := all_query trivial

theorem refuseLogin_elsewhere {user : Option Uuid} {k k' : String} {detail : Json}
    (h : k ≠ key) (h' : k' ≠ key) :
    (Portal.refuseLogin user k k' detail : Verb α).All (Act.Elsewhere P key) :=
  .bind (registerNow_elsewhere h) fun _ => .bind (registerNow_elsewhere h') fun _ =>
    .bind audit_elsewhere fun _ => trivial

theorem admission_elsewhere {user : Uuid} {k event : String} (h : k ≠ key) :
    (do
      resetKey k
      let _ ← trySql (.touchLastLogin user)
      let bearer ← P.mintBearer user defaultBearerTtlHours
      audit event (some user) none none "recipient" (.object [])
      pure (user, bearer) : Verb (Uuid × String)).All (Act.Elsewhere P key) :=
  .bind (all_step h) fun _ => .bind (all_step trivial) fun _ =>
    .bind (mintBearer_all P (fun _ h => h.elsewhere) _ _) fun _ => .bind audit_elsewhere fun _ => trivial

theorem verifyAndMint_elsewhere {email presented ip event : String} (h : P.identityKey email ≠ key)
    (h' : ipKey ip ≠ key) : (P.verifyAndMint email presented ip event).All (Act.Elsewhere P key) := by
  refine .bind (all_step trivial) fun now => .bind (all_checkKey h) fun _ => .bind (all_checkKey h') fun _ =>
    .bind (all_query trivial) fun r => ?_
  split
  · exact refuseLogin_elsewhere h h'
  split
  · exact refuseLogin_elsewhere h h'
  refine .bind (all_step h) fun v => ?_
  split
  · exact .bind (all_step h) fun _ => admission_elsewhere h'
  · exact refuseLogin_elsewhere h h'
  · trivial
  · exact .bind audit_elsewhere fun _ => trivial

theorem obeys_elsewhere {p : Verb α} (hp : p.All (Act.Elsewhere P key)) {s : LoginState}
    (hs : s.stage ≠ .refused) :
    p.Obeys (P.loginSection key) (fun s' _ => s'.stage = s.stage) s := by
  have final : ∀ s' : LoginState, s'.stage = s.stage → (P.loginSection key).final s' := by
    intro s' hs'
    show s'.stage ≠ .refused
    rw [hs']
    exact hs
  refine Prog.obeys_of_all (I := fun s' : LoginState => s'.stage = s.stage) final (fun s' a hs' ha => ?_) hp rfl
  cases a with
  | check k t =>
    refine ⟨fun hk => absurd hk ha, fun r => ?_⟩
    cases r with
    | ok u => simpa only [Portal.loginSection, Portal.loginNext, if_neg (show ¬k = key from ha)] using hs'
    | error e => exact hs'
  | registerFailure k t =>
    exact ⟨fun hk => absurd hk ha, fun r => by
      simpa only [Portal.loginSection, Portal.loginNext, if_neg (show ¬k = key from ha)] using hs'⟩
  | reset k =>
    exact ⟨fun hk => absurd hk ha, fun r => by
      simpa only [Portal.loginSection, Portal.loginNext, if_neg (show ¬k = key from ha)] using hs'⟩
  | verify email presented =>
    refine ⟨fun hk => absurd hk ha, fun r => ?_⟩
    show (P.loginNext key s' ⟨.verify email presented, r⟩).stage = s.stage
    rw [loginNext_asked fun hk => ha hk.1]
    exact hs'
  | sql q => exact ⟨trivial, fun r => hs'⟩
  | now | newUuid | mintNonce => exact ⟨trivial, fun r => hs'⟩

theorem checkKey_obeys {t : Instant} {f : Unit → Verb α} {Q : LoginState → α → Prop}
    (h : (f ()).Obeys (P.loginSection key) Q ⟨.admitted t, some t⟩) :
    ((checkKey key t).bind f).Obeys (P.loginSection key) Q ⟨.outside, some t⟩ := by
  refine ⟨fun _ => ⟨rfl, rfl⟩, fun r => ?_⟩
  cases r with
  | ok u =>
    show (f ()).Obeys (P.loginSection key) Q (P.loginNext key _ ⟨.check key t, .ok ()⟩)
    rw [Portal.loginNext, if_pos rfl]
    exact h
  | error e => exact fun h => nomatch h

theorem refuseLogin_obeys {user : Option Uuid} {k : String} {detail : Json} (hk : k ≠ key) {s : LoginState}
    (hs : s.stage ≠ .outside) :
    (Portal.refuseLogin user key k detail : Verb α).Obeys (P.loginSection key)
    (fun s _ => s.stage ≠ .refused) s := by
  refine ⟨trivial, fun t => ⟨fun _ => ⟨hs, rfl⟩, fun _ => ?_⟩⟩
  have hrest : (do
      registerNow k
      audit "login_refused" user none none "anonymous" detail
      refuse .invalidCredentials : Verb α).All (Act.Elsewhere P key) :=
    .bind (registerNow_elsewhere hk) fun _ => .bind audit_elsewhere fun _ => trivial
  show Prog.Obeys (P.loginSection key) _
    (P.loginNext key { s with reading := some t } ⟨.registerFailure key t, ()⟩) _
  rw [Portal.loginNext, if_pos rfl]
  have hout : (⟨.outside, some t⟩ : LoginState).stage ≠ .refused := fun h => nomatch h
  exact (obeys_elsewhere hrest hout).mono fun s' _ hs' => by rw [hs']; exact hout

theorem verifyAndMint_obeys {email presented ip event : String} (h : P.identityKey email = key) :
    (P.verifyAndMint email presented ip event).Obeys (P.loginSection key)
    (fun s _ => s.stage ≠ .refused) ⟨.outside, none⟩ := by
  subst h
  have hip : ipKey ip ≠ P.identityKey email := (identityKey_ne_ipKey P email ip).symm
  refine ⟨trivial, fun t => checkKey_obeys ?_⟩
  have hadmitted : (⟨.admitted t, some t⟩ : LoginState).stage ≠ .refused := fun h => nomatch h
  have hinside : ∀ s : LoginState, s.stage = .admitted t → s.stage ≠ .outside := fun s hs h => by
    rw [hs] at h; cases h
  refine (obeys_elsewhere (all_checkKey hip) hadmitted).bind fun s _ hs => ?_
  refine (obeys_elsewhere (s := s) (all_query trivial) (by rw [hs]; exact hadmitted)).bind fun s' r hs' => ?_
  rw [hs] at hs'
  split
  · exact refuseLogin_obeys hip (hinside s' hs')
  split
  · exact refuseLogin_obeys hip (hinside s' hs')
  refine ⟨fun _ => ⟨t, hs'⟩, fun v => ?_⟩
  have hlive : s'.stage ≠ .refused := by rw [hs']; exact hadmitted
  match v with
  | none =>
    refine (obeys_elsewhere audit_elsewhere hlive).bind fun s'' _ hs'' => ?_
    show s''.stage ≠ .refused
    rw [hs'']
    exact hlive
  | some (.error e) => exact hlive
  | some (.ok false) =>
    show Prog.Obeys (P.loginSection (P.identityKey email)) _
      (P.loginNext _ s' ⟨.verify email presented, some (.ok false)⟩) _
    rw [loginNext_refused rfl rfl]
    exact refuseLogin_obeys hip fun h => nomatch h
  | some (.ok true) =>
    refine ⟨fun _ => ⟨t, hs'⟩, fun _ => ?_⟩
    show Prog.Obeys (P.loginSection (P.identityKey email)) _
      (P.loginNext _ s' ⟨.reset (P.identityKey email), ()⟩) _
    rw [Portal.loginNext, if_pos rfl]
    have hout : (⟨.outside, s'.reading⟩ : LoginState).stage ≠ .refused := fun h => nomatch h
    exact (obeys_elsewhere (admission_elsewhere hip) hout).mono fun s'' _ hs'' => by rw [hs'']; exact hout

theorem login_obeys (email : String) (c : LoginCall) :
    (P.serveLogin c).Obeys (P.loginSection (P.identityKey email)) (fun s _ => s.stage ≠ .refused)
    ⟨.outside, none⟩ := by
  have hout : (⟨.outside, none⟩ : LoginState).stage ≠ .refused := fun h => nomatch h
  unfold Portal.serveLogin Portal.login
  dsimp only
  split
  · exact hout
  · by_cases h : P.identityKey (P.normalizeEmail c.email) = P.identityKey email
    · exact verifyAndMint_obeys h
    · have hip : ipKey c.ip ≠ P.identityKey email := (identityKey_ne_ipKey P email c.ip).symm
      exact (obeys_elsewhere (verifyAndMint_elsewhere h hip) hout).mono fun s' _ hs' => by rw [hs']; exact hout

end

/-! ## The bound -/

def Timely (pool : Pool portalMachine Halt (Uuid × String) LoginCall)
    (m : Move portalMachine LoginCall) : Prop :=
  ∀ x ∈ pool.performs m, pool.world.clock ≤ x.2.now

/-- The login has passed the check of the identity, and neither written the book nor returned. -/
def Portal.Between (P : Portal) (key : String) (c : Call portalSig Halt (Uuid × String) LoginCall) : Prop :=
  c.Inside (P.loginSection key)

/-- A check of the identity that the book admits finds no login between its check
and the book, and a registered failure fits its counter. -/
def Portal.Unshared (P : Portal) (key : String)
    (pool : Pool portalMachine Halt (Uuid × String) LoginCall) : Act → Prop
  | .check k t => k = key → pool.world.book.check key t = .ok () → ∀ c ∈ pool.calls, ¬P.Between key c
  | .registerFailure k _ => k = key → pool.world.book.Counts key
  | _ => True

/-- The logins pass the check of the identity one at a time. -/
def Portal.OneAtATime (P : Portal) (key : String) (pool : Pool portalMachine Halt (Uuid × String) LoginCall)
    (m : Move portalMachine LoginCall) : Prop := ∀ x ∈ pool.performs m, P.Unshared key pool x.1

instance (pool : Pool portalMachine Halt (Uuid × String) LoginCall) (m : Move portalMachine LoginCall) :
    Decidable (Timely pool m) := inferInstanceAs (Decidable (∀ x ∈ pool.performs m, pool.world.clock ≤ x.2.now))

instance (P : Portal) (key : String) : DecidablePred (P.Between key) := fun c =>
  inferInstanceAs (Decidable (c.Inside (P.loginSection key)))

instance (P : Portal) (key : String) (pool : Pool portalMachine Halt (Uuid × String) LoginCall) :
    DecidablePred (P.Unshared key pool) := fun a => by
  unfold Portal.Unshared
  split <;> exact inferInstance

instance (P : Portal) (key : String) (pool : Pool portalMachine Halt (Uuid × String) LoginCall)
    (m : Move portalMachine LoginCall) : Decidable (P.OneAtATime key pool m) :=
  inferInstanceAs (Decidable (∀ x ∈ pool.performs m, P.Unshared key pool x.1))

namespace Probe

def identity : String := portal.identityKey email

def noLogins : Pool portalMachine Halt (Uuid × String) LoginCall := ⟨world enrolled, []⟩

def guessing (j : Nat) : List (Move portalMachine LoginCall) :=
  List.replicate 5 (.step j { env with verdict := some (.ok false) })

def starting : Move portalMachine LoginCall := .start ⟨email, "guess", "10.0.0.1"⟩

def atOnce : List (Move portalMachine LoginCall) := starting :: starting :: (guessing 0 ++ guessing 1)

def inTurn : List (Move portalMachine LoginCall) :=
  starting :: List.replicate 10 (.step 0 { env with verdict := some (.ok false) }) ++
    starting :: List.replicate 5 (.step 1 { env with now := now + seconds 1, verdict := some (.ok false) })

end Probe

end BackbonePortal
