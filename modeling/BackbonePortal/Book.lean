import BackbonePortal.Throttle

/-!
# The attempt book, call by call

What the book holds of a key is decided by the failures registered for it since
its last reset: how many they are, as an `i32`, and when the last one was.
-/

namespace BackbonePortal

/-! ## Instants and counters -/

theorem seconds_mono {m n : Int} (h : m ≤ n) : seconds m ≤ seconds n :=
  Int.mul_le_mul_of_nonneg_right h (by decide)

theorem seconds_sub (m n : Int) : seconds (m - n) = seconds m - seconds n := Int.sub_mul m n 1000000000

theorem wrapI32_eq_self {n : Int} : wrapI32 n = n ↔ -(2 ^ 31) ≤ n ∧ n < 2 ^ 31 := by
  unfold wrapI32
  constructor
  · intro h
    have hle := Int.le_bmod (x := n) (m := 2 ^ 32) (by decide)
    have hlt := Int.bmod_lt (x := n) (m := 2 ^ 32) (by decide)
    omega
  · rintro ⟨hle, hlt⟩
    exact Int.bmod_eq_of_le (by omega) (by omega)

theorem wrapI32_succ (n : Int) : wrapI32 (wrapI32 n + 1) = wrapI32 (n + 1) := by
  unfold wrapI32
  exact (Int.bmod_add_cancel_right 1).mpr Int.bmod_bmod

theorem lockSeconds_eq {failures : Int} : lockSeconds failures = min (30 * 2 ^ (failures - 5).toNat) 900 := by
  unfold lockSeconds attemptLockBaseSeconds attemptLockCapSeconds attemptMaxFailures
  rcases Nat.le_total (failures - 5).toNat 16 with hcap | hcap
  · rw [Nat.min_eq_left hcap]
  · rw [Nat.min_eq_right hcap]
    have hpow : (2 : Int) ^ 16 ≤ 2 ^ (failures - 5).toNat := by
      exact_mod_cast Nat.pow_le_pow_right Nat.zero_lt_two hcap
    omega

/-! ## One entry -/

theorem FailureEntry.check_ok_iff {e : FailureEntry} {now : Instant} : e.check now = .ok () ↔
    (∀ u, e.lockedUntil = some u → u ≤ now) ∧ ∀ last, e.lastAttempt = some last → seconds 1 ≤ now - last := by
  unfold FailureEntry.check
  constructor
  · intro h
    split at h
    · cases h
    next hlocked =>
      split at h
      · cases h
      next hlast =>
        constructor
        · intro u hu
          rw [hu, Option.filter_eq_none_iff] at hlocked
          have := hlocked u rfl
          rw [decide_eq_true_eq, Int.not_lt] at this
          exact this
        · intro last hl
          rw [hl, Option.filter_eq_none_iff] at hlast
          have := hlast last rfl
          rw [decide_eq_true_eq, attemptSpacing, Int.not_lt] at this
          exact this
  · intro ⟨hlocked, hlast⟩
    have hl : (e.lockedUntil.filter fun until_ => now < until_) = none := by
      apply Option.filter_eq_none_iff.mpr
      intro u hu
      rw [decide_eq_true_eq, Int.not_lt]
      exact hlocked u hu
    have ha : (e.lastAttempt.filter fun last => now - last < attemptSpacing) = none := by
      apply Option.filter_eq_none_iff.mpr
      intro last hl
      rw [decide_eq_true_eq, attemptSpacing, Int.not_lt]
      exact hlast last hl
    rw [hl, ha]

theorem FailureEntry.check_limited {e : FailureEntry} {now : Instant} {r : Int}
    (h : e.check now = .error (.rateLimited r)) :
    (∃ u, e.lockedUntil = some u ∧ now < u ∧ r = max (numSeconds (u - now)) 1) ∨
      (∀ u, e.lockedUntil = some u → u ≤ now) ∧ r = 1 := by
  unfold FailureEntry.check at h
  split at h
  next u hu =>
    cases h
    obtain ⟨hu, hlt⟩ := Option.filter_eq_some_iff.mp hu
    exact .inl ⟨u, hu, of_decide_eq_true hlt, rfl⟩
  next hlocked =>
    split at h
    · cases h
      refine .inr ⟨fun u hu => ?_, rfl⟩
      have := Option.filter_eq_none_iff.mp hlocked u hu
      rw [decide_eq_true_eq, Int.not_lt] at this
      exact this
    · cases h

theorem FailureEntry.check_locked {e : FailureEntry} {now u : Instant}
    (hu : e.lockedUntil = some u) (hlt : now < u) :
    e.check now = .error (.rateLimited (max (numSeconds (u - now)) 1)) := by
  have hfilter : (e.lockedUntil.filter fun until_ => now < until_) = some u :=
    Option.filter_eq_some_iff.mpr ⟨hu, decide_eq_true hlt⟩
  unfold FailureEntry.check
  rw [hfilter]

/-! ## The calls -/

inductive BookCall where
  | registerFailure (key : String) (now : Instant)
  | reset (key : String)
deriving DecidableEq, Repr

def BookCall.key : BookCall → String
  | .registerFailure key _ => key
  | .reset key => key

def AttemptBook.after (b : AttemptBook) : BookCall → AttemptBook
  | .registerFailure key now => b.registerFailure key now
  | .reset key => b.reset key

def AttemptBook.play (b : AttemptBook) (calls : List BookCall) : AttemptBook := calls.foldl AttemptBook.after b

/-- The failures of a key since its last reset, and one call more. -/
def noteCall (key : String) (stamps : List Instant) : BookCall → List Instant
  | .registerFailure k now => if k = key then stamps ++ [now] else stamps
  | .reset k => if k = key then [] else stamps

/-- The failures of a key since its last reset, oldest first. -/
def failuresSince (key : String) (calls : List BookCall) : List Instant := calls.foldl (noteCall key) []

def FailureEntry.ofStamps (stamps : List Instant) : Option FailureEntry :=
  stamps.getLast?.map fun last =>
    { failures := wrapI32 stamps.length
      lockedUntil := lockoutUntil (wrapI32 stamps.length) last
      lastAttempt := some last }

theorem FailureEntry.ofStamps_concat (stamps : List Instant) (now : Instant) :
    ofStamps (stamps ++ [now]) = some (((ofStamps stamps).getD ⟨0, none, none⟩).register now) := by
  have hcount : ((ofStamps stamps).getD ⟨0, none, none⟩).failures = wrapI32 stamps.length := by
    cases hlast : stamps.getLast? with
    | none => simp [ofStamps, List.getLast?_eq_none_iff.mp hlast, wrapI32]
    | some last => simp [ofStamps, hlast]
  have hnext : wrapI32 ((stamps ++ [now]).length : Int) = wrapI32 (wrapI32 stamps.length + 1) := by
    rw [wrapI32_succ, List.length_append, List.length_singleton, Int.natCast_add, Int.natCast_one]
  unfold ofStamps register
  rw [List.getLast?_concat, Option.map_some, hnext]
  unfold ofStamps at hcount
  rw [hcount]

namespace AttemptBook

variable {b : AttemptBook} {key other : String} {now : Instant}

theorem entries_after {stamps : List Instant} (h : b.entries key = FailureEntry.ofStamps stamps)
    (call : BookCall) :
    (b.after call).entries key = FailureEntry.ofStamps (noteCall key stamps call) := by
  cases call with
  | registerFailure k now =>
    show (b.registerFailure k now).entries key =
      FailureEntry.ofStamps (if k = key then stamps ++ [now] else stamps)
    unfold registerFailure
    by_cases hk : k = key
    · rw [if_pos hk, hk, put_self, h, FailureEntry.ofStamps_concat]
    · rw [if_neg hk, put_other _ (Ne.symm hk), h]
  | reset k =>
    show (b.reset k).entries key = FailureEntry.ofStamps (if k = key then [] else stamps)
    unfold reset
    by_cases hk : k = key
    · rw [if_pos hk, hk, put_self]
      rfl
    · rw [if_neg hk, put_other _ (Ne.symm hk), h]

theorem entries_play {stamps : List Instant} (h : b.entries key = FailureEntry.ofStamps stamps)
    (calls : List BookCall) :
    (b.play calls).entries key = FailureEntry.ofStamps (calls.foldl (noteCall key) stamps) := by
  induction calls generalizing b stamps with
  | nil => exact h
  | cons call calls ih => exact ih (entries_after h call)

/-- **The book is its log**: after any calls the entry of a key is that of its
failures since its last reset. -/
theorem play_entries (calls : List BookCall) (key : String) :
    (empty.play calls).entries key = FailureEntry.ofStamps (failuresSince key calls) := entries_play rfl calls

theorem play_failures (calls : List BookCall) (key : String) :
    (empty.play calls).failures key = wrapI32 (failuresSince key calls).length := by
  unfold failures
  rw [play_entries]
  unfold FailureEntry.ofStamps
  cases hlast : (failuresSince key calls).getLast? with
  | none => simp [List.getLast?_eq_none_iff.mp hlast, wrapI32]
  | some last => rw [Option.map_some, Option.map_some, Option.getD_some]

theorem check_of_entries {b' : AttemptBook} (h : b'.entries key = b.entries key) (t : Instant) :
    b'.check key t = b.check key t := by
  unfold check
  rw [h]

theorem after_other {call : BookCall} (h : call.key ≠ key) : (b.after call).entries key = b.entries key := by
  cases call with
  | registerFailure k now => exact put_other _ (Ne.symm h) _
  | reset k => exact put_other _ (Ne.symm h) _

end AttemptBook

/-! ## What a check answers -/

section
variable (calls : List BookCall) (key : String)

theorem play_entry {s : Instant} (hs : (failuresSince key calls).getLast? = some s) :
    ∃ e, (AttemptBook.empty.play calls).entries key = some e ∧
      e.failures = (AttemptBook.empty.play calls).failures key ∧
      e.lockedUntil = lockoutUntil ((AttemptBook.empty.play calls).failures key) s ∧
        e.lastAttempt = some s := by
  have he := AttemptBook.play_entries calls key
  unfold FailureEntry.ofStamps at he
  rw [hs, Option.map_some, ← AttemptBook.play_failures] at he
  exact ⟨_, he, rfl, rfl, rfl⟩

theorem lockoutUntil_le_iff {failures : Int} {s t : Instant} : (∀ u, lockoutUntil failures s = some u → u ≤ t) ↔
    failures < 5 ∨ seconds (min (30 * 2 ^ (failures - 5).toNat) 900) ≤ t - s := by
  unfold lockoutUntil attemptMaxFailures
  rw [← lockSeconds_eq]
  by_cases hf : failures < 5
  · simp [hf]
  · rw [if_neg hf]
    constructor
    · intro h
      exact .inr (Int.le_sub_left_of_add_le (h _ rfl))
    · intro h u hu
      cases hu
      exact Int.add_le_of_le_sub_left (h.resolve_left hf)

theorem check_ok_since {s : Instant} (hs : (failuresSince key calls).getLast? = some s) (t : Instant) :
    (AttemptBook.empty.play calls).check key t = .ok () ↔
      seconds 1 ≤ t - s ∧ ((AttemptBook.empty.play calls).failures key < 5 ∨
        seconds (min (30 * 2 ^ ((AttemptBook.empty.play calls).failures key - 5).toNat) 900) ≤ t - s) := by
  obtain ⟨e, he, -, hlocked, hlast⟩ := play_entry calls key hs
  unfold AttemptBook.check
  rw [he]
  dsimp only
  rw [FailureEntry.check_ok_iff, hlocked, hlast, lockoutUntil_le_iff, and_comm]
  simp only [Option.some.injEq, forall_eq']

theorem check_ok_unfailed (hs : (failuresSince key calls).getLast? = none) (t : Instant) :
    (AttemptBook.empty.play calls).check key t = .ok () := by
  have he := AttemptBook.play_entries calls key
  unfold FailureEntry.ofStamps at he
  rw [hs, Option.map_none] at he
  unfold AttemptBook.check
  rw [he]

/-- **What `check` answers.** A key is admitted exactly if it has no failure since
its last reset, or its last one is a second old and as old as the lockout for
the recorded count; the calls on other keys do not matter. -/
theorem book_check_iff (t : Instant) :
    ((AttemptBook.empty.play calls).check key t = .ok () ↔
      match (failuresSince key calls).getLast? with
      | none => True
      | some s => seconds 1 ≤ t - s ∧ ((AttemptBook.empty.play calls).failures key < 5 ∨
        seconds (min (30 * 2 ^ ((AttemptBook.empty.play calls).failures key - 5).toNat) 900) ≤ t - s)) ∧
    ∀ call : BookCall, call.key ≠ key →
      ((AttemptBook.empty.play calls).after call).check key t = (AttemptBook.empty.play calls).check key t := by
  refine ⟨?_, fun call hcall => AttemptBook.check_of_entries (AttemptBook.after_other hcall) t⟩
  cases hs : (failuresSince key calls).getLast? with
  | none => exact ⟨fun _ => trivial, fun _ => check_ok_unfailed calls key hs t⟩
  | some s => exact check_ok_since calls key hs t

end

namespace Probe

def flooded : String := "portal|ip:10.0.0.1"

def flood (n : Nat) : List BookCall := List.replicate n (.registerFailure flooded (seconds 1700000000))

end Probe

theorem book_check_iff_probe :
    (AttemptBook.empty.play (Probe.flood 6)).check Probe.flooded (seconds 1700000060) = .ok () ∧
    ((AttemptBook.empty.play (Probe.flood 6)).after (.reset "portal|ip:10.0.0.2")).check Probe.flooded
      (seconds 1700000059) =
      (AttemptBook.empty.play (Probe.flood 6)).check Probe.flooded (seconds 1700000059) := by
  have hlast : (failuresSince Probe.flooded (Probe.flood 6)).getLast? = some (seconds 1700000000) := by decide
  refine ⟨(book_check_iff (Probe.flood 6) Probe.flooded _).1.mpr ?_,
    (book_check_iff (Probe.flood 6) Probe.flooded _).2 (.reset "portal|ip:10.0.0.2") (by decide)⟩
  rw [hlast]
  decide

/-! ## The advertised wait -/

theorem noteCall_unregistered {key : String} {more : List BookCall} (h : ∀ now, .registerFailure key now ∉ more)
    (stamps : List Instant) : more.foldl (noteCall key) stamps = stamps ∨
    more.foldl (noteCall key) stamps = [] := by
  induction more generalizing stamps with
  | nil => exact .inl rfl
  | cons call more ih =>
    have ih := ih fun now hmem => h now (List.mem_cons_of_mem _ hmem)
    rw [List.foldl_cons]
    cases call with
    | registerFailure k now =>
      have hk : k ≠ key := by
        intro hk
        exact h now (hk ▸ List.mem_cons_self)
      rw [show noteCall key stamps (.registerFailure k now) = stamps from if_neg hk]
      exact ih stamps
    | reset k =>
      by_cases hk : k = key
      · rw [show noteCall key stamps (.reset k) = [] from if_pos hk]
        exact .inr ((ih []).elim id id)
      · rw [show noteCall key stamps (.reset k) = stamps from if_neg hk]
        exact ih stamps

theorem wait_covers_iff {d : Int} (hd : 0 < d) :
    d ≤ seconds (max (numSeconds d) 1) ↔ d ≤ seconds 1 ∨ ∃ n, d = seconds n := by
  unfold seconds numSeconds
  rw [Int.tdiv_eq_ediv_of_nonneg (Int.le_of_lt hd)]
  constructor
  · intro h
    by_cases hsmall : d ≤ 1 * 1000000000
    · exact .inl hsmall
    · exact .inr ⟨d / 1000000000, by omega⟩
  · rintro (h | ⟨n, rfl⟩) <;> omega

/-- **Retry-After suffices** exactly where the rest of the lockout is at most a
second or the wait began a whole number of seconds after the last failure. -/
theorem retry_after_suffices_iff (calls : List BookCall) (key : String) (t : Instant)
    (hpast : ∀ s, (failuresSince key calls).getLast? = some s → s ≤ t) :
    (∀ r, (AttemptBook.empty.play calls).check key t = .error (.rateLimited r) →
      ∀ more : List BookCall, (∀ now, .registerFailure key now ∉ more) →
        ((AttemptBook.empty.play calls).play more).check key (t + seconds r) = .ok ()) ↔
    ∀ s, (failuresSince key calls).getLast? = some s → 5 ≤ (AttemptBook.empty.play calls).failures key →
      s + seconds (min (30 * 2 ^ ((AttemptBook.empty.play calls).failures key - 5).toNat) 900) ≤ t + seconds 1 ∨
        ∃ n, t = s + seconds n := by
  cases hs : (failuresSince key calls).getLast? with
  | none =>
    rw [check_ok_unfailed calls key hs]
    exact ⟨fun _ s h => (nomatch h), fun _ r h => (nomatch h)⟩
  | some s =>
    obtain ⟨e, he, -, hlocked, hlast⟩ := play_entry calls key hs
    have hst : s ≤ t := hpast s hs
    have hcheck : ∀ u, (AttemptBook.empty.play calls).check key u = e.check u := by
      intro u
      unfold AttemptBook.check
      rw [he]
    simp only [hcheck, Option.some.injEq, forall_eq']
    generalize (AttemptBook.empty.play calls).failures key = f at hlocked ⊢
    rw [← lockSeconds_eq]
    constructor
    · intro h hf
      by_cases hlt : t < s + seconds (lockSeconds f)
      · have hu : e.lockedUntil = some (s + seconds (lockSeconds f)) := by
          rw [hlocked, lockoutUntil, if_neg (by unfold attemptMaxFailures; omega)]
        have hok := h _ (FailureEntry.check_locked hu hlt) [] fun _ => List.not_mem_nil
        rw [AttemptBook.play, List.foldl_nil, hcheck, FailureEntry.check_ok_iff] at hok
        have hcovers := (wait_covers_iff (Int.sub_pos.mpr hlt)).mp (Int.sub_left_le_of_le_add (hok.1 _ hu))
        rcases hcovers with hsmall | ⟨n, hn⟩
        · exact .inl (Int.le_add_of_sub_left_le hsmall)
        · have hmove : ∀ a b c d : Int, a + b - c = d → c = a + (b - d) := by omega
          exact .inr ⟨lockSeconds f - n, by rw [seconds_sub]; exact hmove _ _ _ _ hn⟩
      · exact .inl (Int.le_trans (Int.not_lt.mp hlt) (Int.le_add_of_nonneg_right (by decide)))
    · intro hcond r hr more hmore
      rcases noteCall_unregistered hmore (failuresSince key calls) with hsame | hnone
      · have hnow := AttemptBook.entries_play (AttemptBook.play_entries calls key) more
        rw [hsame, ← AttemptBook.play_entries, he] at hnow
        have hone : 1 ≤ r ∧ ∀ u, e.lockedUntil = some u → u ≤ t + seconds r := by
          rcases FailureEntry.check_limited hr with ⟨u, hu, hlt, rfl⟩ | ⟨hopen, rfl⟩
          · refine ⟨Int.le_max_right _ _, fun u' hu' => ?_⟩
            cases hu.symm.trans hu'
            refine Int.le_add_of_sub_left_le ((wait_covers_iff (Int.sub_pos.mpr hlt)).mpr ?_)
            rw [hlocked, lockoutUntil] at hu
            split at hu
            · cases hu
            next hf =>
              cases hu
              rcases hcond (Int.not_lt.mp hf) with hsmall | ⟨n, rfl⟩
              · exact .inl (Int.sub_left_le_of_le_add hsmall)
              · exact .inr ⟨lockSeconds f - n, by rw [seconds_sub]; exact Int.add_sub_add_left s _ _⟩
          · exact ⟨Int.le_refl 1, fun u hu =>
              Int.le_trans (hopen u hu) (Int.le_add_of_nonneg_right (by decide))⟩
        unfold AttemptBook.check
        rw [hnow]
        refine FailureEntry.check_ok_iff.mpr ⟨hone.2, fun last hl => ?_⟩
        rw [hlast] at hl
        cases hl
        have hlater : ∀ a b c d : Int, a ≤ b → c ≤ d → c ≤ b + d - a := by omega
        exact hlater _ _ _ _ hst (seconds_mono hone.1)
      · have hnow := AttemptBook.entries_play (AttemptBook.play_entries calls key) more
        rw [hnone] at hnow
        unfold AttemptBook.check
        rw [hnow]
        rfl

/-- Half a second after the fifth failure the wait is 29 seconds, and the lockout lasts 29.5. -/
theorem retry_after_too_short :
    (AttemptBook.empty.play (Probe.flood 5)).check Probe.flooded (seconds 1700000000 + 500000000) =
      .error (.rateLimited 29) ∧
    (AttemptBook.empty.play (Probe.flood 5)).check Probe.flooded (seconds 1700000000 + 500000000 + seconds 29) =
      .error (.rateLimited 1) := ⟨rfl, rfl⟩

theorem retry_after_suffices_iff_probe :
    (AttemptBook.empty.play (Probe.flood 5)).check Probe.flooded (seconds 1700000010) =
    .error (.rateLimited 20) ∧
    ((AttemptBook.empty.play (Probe.flood 5)).play [.reset "portal|ip:10.0.0.2"]).check Probe.flooded
      (seconds 1700000010 + seconds 20) = .ok () := by
  have hlast : (failuresSince Probe.flooded (Probe.flood 5)).getLast? = some (seconds 1700000000) := by decide
  refine ⟨rfl, (retry_after_suffices_iff (Probe.flood 5) Probe.flooded (seconds 1700000010) fun s hs => ?_).mpr
    (fun s hs _ => ?_) 20 rfl _ fun now hmem => ?_⟩
  · cases hlast.symm.trans hs
    decide
  · cases hlast.symm.trans hs
    exact .inr ⟨10, by decide⟩
  · cases List.mem_singleton.mp hmem

/-! ## The count -/

theorem wrapI32_count {n : Nat} : wrapI32 n = n ↔ n < 2 ^ 31 := by
  rw [wrapI32_eq_self]
  omega

theorem play_snoc (calls : List BookCall) (call : BookCall) :
    (AttemptBook.empty.play calls).after call = AttemptBook.empty.play (calls ++ [call]) := by
  unfold AttemptBook.play
  rw [List.foldl_append]
  rfl

theorem failuresSince_register (calls : List BookCall) (key : String) (now : Instant) :
    failuresSince key (calls ++ [.registerFailure key now]) = failuresSince key calls ++ [now] := by
  unfold failuresSince
  rw [List.foldl_append]
  exact if_pos rfl

theorem check_locked_iff {calls : List BookCall} {key : String} {s : Instant}
    (hs : (failuresSince key calls).getLast? = some s) (hn : 5 ≤ (failuresSince key calls).length)
    (hfits : (failuresSince key calls).length < 2 ^ 31) (t : Instant) :
    (AttemptBook.empty.play calls).check key t = .ok () ↔
      s + seconds (min (30 * 2 ^ ((failuresSince key calls).length - 5)) 900) ≤ t := by
  rw [check_ok_since calls key hs, AttemptBook.play_failures, wrapI32_count.mpr hfits]
  generalize (failuresSince key calls).length = n at hn
  have hsub : ((n : Int) - 5).toNat = n - 5 := by omega
  have hpow : (0 : Int) < 2 ^ (n - 5) := Int.pow_pos (by decide)
  have hlong : seconds 1 ≤ seconds (min (30 * 2 ^ (n - 5)) 900) := seconds_mono (by omega)
  rw [hsub]
  constructor
  · rintro ⟨-, hshort | hlock⟩
    · omega
    · exact Int.add_le_of_le_sub_left hlock
  · intro h
    have hlock := Int.le_sub_left_of_add_le h
    exact ⟨Int.le_trans hlong hlock, .inr hlock⟩

/-- **The counter lets go** at `2 ^ 31` failures: the recorded count is exact,
the lockout is that of the count, and one more failure locks as long, exactly
while one more failure fits the `i32`. -/
theorem failure_count_holds_iff (calls : List BookCall) (key : String) (s : Instant)
    (hs : (failuresSince key calls).getLast? = some s) (hn : 5 ≤ (failuresSince key calls).length) :
    ((AttemptBook.empty.play calls).failures key = (failuresSince key calls).length ∧
      (∀ t, (AttemptBook.empty.play calls).check key t = .ok () ↔
        s + seconds (min (30 * 2 ^ ((failuresSince key calls).length - 5)) 900) ≤ t) ∧
      ∀ now t, ((AttemptBook.empty.play calls).after (.registerFailure key now)).check key t = .ok () →
        now + seconds (min (30 * 2 ^ ((failuresSince key calls).length - 5)) 900) ≤ t) ↔
    (failuresSince key calls).length + 1 < 2 ^ 31 := by
  have hmore : ∀ now, (failuresSince key (calls ++ [.registerFailure key now])).getLast? = some now ∧
      (failuresSince key (calls ++ [.registerFailure key now])).length =
      (failuresSince key calls).length + 1 := by
    intro now
    rw [failuresSince_register]
    exact ⟨List.getLast?_concat, List.length_append⟩
  constructor
  · rintro ⟨hcount, -, hkeeps⟩
    rw [AttemptBook.play_failures, wrapI32_count] at hcount
    by_contra hlast
    have hlen : (failuresSince key calls).length = 2 ^ 31 - 1 := by omega
    have hok : ((AttemptBook.empty.play calls).after (.registerFailure key 0)).check
      key (seconds 1) = .ok () := by
      obtain ⟨hstamp, hlength⟩ := hmore 0
      rw [play_snoc, check_ok_since _ key hstamp, AttemptBook.play_failures, hlength, hlen]
      exact ⟨by decide, .inl (by decide)⟩
    have hshort := hkeeps 0 (seconds 1) hok
    have hpow : (2 : Int) ^ 5 ≤ 2 ^ ((failuresSince key calls).length - 5) := by
      exact_mod_cast Nat.pow_le_pow_right Nat.zero_lt_two (by omega)
    have hcap : (900 : Int) ≤ min (30 * 2 ^ ((failuresSince key calls).length - 5)) 900 := by omega
    rw [Int.zero_add] at hshort
    exact absurd (Int.le_trans (seconds_mono hcap) hshort) (by decide)
  · intro hfits
    refine ⟨?_, check_locked_iff hs hn (by omega), fun now t h => ?_⟩
    · rw [AttemptBook.play_failures, wrapI32_count]
      omega
    · obtain ⟨hstamp, hlength⟩ := hmore now
      rw [play_snoc, check_locked_iff hstamp (by omega) (by omega), hlength] at h
      refine Int.le_trans (Int.add_le_add_left (seconds_mono ?_) now) h
      have hpow : (2 : Int) ^ ((failuresSince key calls).length - 5) ≤
        2 ^ ((failuresSince key calls).length + 1 - 5) := by
        exact_mod_cast Nat.pow_le_pow_right Nat.zero_lt_two (by omega)
      omega

theorem failuresSince_flood (n : Nat) :
    failuresSince Probe.flooded (Probe.flood n) = List.replicate n (seconds 1700000000) := by
  induction n with
  | zero => rfl
  | succ n ih =>
    unfold Probe.flood at ih ⊢
    rw [List.replicate_succ', List.replicate_succ', failuresSince_register, ih]

/-- After `2 ^ 31` failures the count is negative, and the key is free. -/
theorem failure_count_wraps :
    (failuresSince Probe.flooded (Probe.flood (2 ^ 31))).length = 2 ^ 31 ∧
    (AttemptBook.empty.play (Probe.flood (2 ^ 31))).failures Probe.flooded = -2 ^ 31 ∧
    (AttemptBook.empty.play (Probe.flood (2 ^ 31))).check Probe.flooded (seconds 1700000001) = .ok () := by
  have hlen : (failuresSince Probe.flooded (Probe.flood (2 ^ 31))).length = 2 ^ 31 := by
    rw [failuresSince_flood, List.length_replicate]
  have hcount : (AttemptBook.empty.play (Probe.flood (2 ^ 31))).failures Probe.flooded = -2 ^ 31 := by
    rw [AttemptBook.play_failures, hlen]
    decide
  have hlast : (failuresSince Probe.flooded (Probe.flood (2 ^ 31))).getLast? = some (seconds 1700000000) := by
    rw [failuresSince_flood, List.getLast?_replicate, if_neg (by decide)]
  refine ⟨hlen, hcount, (check_ok_since _ _ hlast _).mpr ⟨by decide, .inl ?_⟩⟩
  rw [hcount]
  decide

theorem failure_count_holds_iff_probe :
    (AttemptBook.empty.play (Probe.flood 6)).failures Probe.flooded = 6 ∧
    ((AttemptBook.empty.play (Probe.flood 6)).check Probe.flooded (seconds 1700000059) = .ok () ↔
      seconds 1700000000 + seconds 60 ≤ seconds 1700000059) := by
  have h := (failure_count_holds_iff (Probe.flood 6) Probe.flooded (seconds 1700000000)
    (by decide) (by decide)).mpr (by decide)
  exact ⟨h.1, h.2.1 _⟩

end BackbonePortal
