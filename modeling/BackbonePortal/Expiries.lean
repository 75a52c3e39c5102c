import BackbonePortal.Lifetime

/-!
# Expiries

The lifetime a mint is asked for is raised to a least one and not bounded from
above. Each verb reads the clock right after it draws its nonce; from there to
the expiry stands the arithmetic of the clock library, which panics.
-/

namespace BackbonePortal

open Proc Tables

def Act.expiry : Act → Option Instant
  | .sql (.insertToken _ _ _ expires) | .sql (.rotateToken _ _ _ _ expires)
    | .sql (.insertInvite _ _ _ expires _) =>
    some expires
  | _ => none

/-- The clock is read for an expiry right after the nonce is drawn. -/
def MintedAt (t : Instant) (evs : List (Event portalSig)) : Prop :=
  ∃ before nonce after, evs = before ++ ⟨.mintNonce, nonce⟩ :: ⟨.now, t⟩ :: after

def Unpanicked {α : Type} (o : Except Halt α) : Prop := ∀ m, o ≠ .error (.panicked m)

/-- The verb did not panic, and what it wrote expires after the minting instant. -/
def ExpirySound {α : Type} (evs : List (Event portalSig)) (o : Except Halt α) : Prop :=
  Unpanicked o ∧ ∀ ev ∈ evs, ∀ expires ∈ ev.act.expiry, (∃ t, MintedAt t evs) ∧
    ∀ t, MintedAt t evs → t < expires

/-- The expiry is sound exactly if the lifetime can be represented from the minting instant. -/
def SoundWhenLasts {α : Type} (perUnit n : Int) (evs : List (Event portalSig)) (o : Except Halt α) : Prop :=
  ExpirySound evs o ↔ ∀ t, MintedAt t evs → Lasts perUnit n t

/-! ## Events around a mint -/

def Act.Unminting (a : Act) : Prop := a ≠ .mintNonce ∧ a.expiry = none

def Act.WritesOnly (expires : Instant) (a : Act) : Prop := a ≠ .mintNonce ∧ ∀ x ∈ a.expiry, x = expires

section
variable {α β : Type} {perUnit n : Int} {evs : List (Event portalSig)} {ev : Event portalSig}
    {t : Instant} {o : Except Halt α}

theorem mintedAt_cons :
    MintedAt t (ev :: evs) ↔ (∃ nonce after, ev = ⟨.mintNonce, nonce⟩ ∧ evs = ⟨.now, t⟩ :: after) ∨
      MintedAt t evs := by
  constructor
  · intro h
    obtain ⟨before, nonce, after, heq⟩ := h
    cases before with
    | nil =>
      obtain ⟨hev, hevs⟩ := List.cons.inj heq
      exact .inl ⟨nonce, after, hev, hevs⟩
    | cons x before =>
      obtain ⟨-, hevs⟩ := List.cons.inj heq
      exact .inr ⟨before, nonce, after, hevs⟩
  · intro h
    rcases h with ⟨nonce, after, rfl, rfl⟩ | ⟨before, nonce, after, rfl⟩
    · exact ⟨[], nonce, after, rfl⟩
    · exact ⟨ev :: before, nonce, after, rfl⟩

theorem not_mintedAt (h : ∀ ev ∈ evs, ev.act ≠ .mintNonce) : ¬MintedAt t evs := by
  intro hm
  obtain ⟨before, nonce, after, rfl⟩ := hm
  exact h ⟨.mintNonce, nonce⟩ (by simp) rfl

theorem mintedAt_after (h : ev.act ≠ .mintNonce) : MintedAt t (ev :: evs) ↔ MintedAt t evs := by
  rw [mintedAt_cons]
  apply or_iff_right
  intro hm
  obtain ⟨nonce, after, rfl, -⟩ := hm
  exact h rfl

theorem soundWhenLasts_cons (h : ev.act.Unminting) :
    SoundWhenLasts perUnit n (ev :: evs) o ↔ SoundWhenLasts perUnit n evs o := by
  unfold SoundWhenLasts ExpirySound
  simp only [mintedAt_after h.1, List.forall_mem_cons, h.2, Option.not_mem_none,
    false_imp_iff, implies_true, true_and]

/-! ## Programs around a mint -/

theorem unpanicked_fail {e : PortalError} : Unpanicked (.error (.err e) : Except Halt α) := fun _ h => nomatch h

theorem unpanicked_refuse (e : PortalError) : (refuse e : Verb α).Ends Unpanicked := unpanicked_fail

theorem unpanicked_bind {p : Verb β} {f : β → Verb α} (hp : p.Ends Unpanicked)
    (hf : ∀ b, (f b).Ends Unpanicked) :
    (p.bind f).Ends Unpanicked :=
  hp.bind (fun b _ => hf b) fun e he m h => he m (by cases h; rfl)

theorem unpanicked_query (q : Stmt) : (query q).Ends Unpanicked := by
  intro r
  cases r with
  | ok r => exact fun _ h => nomatch h
  | error e => exact unpanicked_fail

theorem unpanicked_ofExcept (x : Except PortalError α) : (ofExcept x).Ends Unpanicked := by
  cases x with
  | ok a => exact fun _ h => nomatch h
  | error e => exact unpanicked_refuse e

theorem soundWhenLasts_bind {p : Verb β} {f : β → Verb α} (hp : p.All Act.Unminting) (hends : p.Ends Unpanicked)
    (hf : ∀ b, (f b).Paths (SoundWhenLasts perUnit n)) : (p.bind f).Paths (SoundWhenLasts perUnit n) := by
  induction p with
  | ret b => exact hf b
  | fail e =>
    refine iff_of_true ⟨fun m h => hends m (by cases h; rfl), fun ev h => (nomatch h)⟩ fun t hm => ?_
    exact absurd hm (not_mintedAt fun ev h => nomatch h)
  | act a k ih => exact fun r => (ih r (hp.2 r) (hends r)).mono fun evs o h => (soundWhenLasts_cons hp.1).mpr h

/-- **The mint**: the nonce, the clock, the expiry, and what is written with it. -/
theorem soundWhenLasts_mint {unit : String} {f : String → Instant → Verb α} (hunit : 0 < perUnit) (hn : 1 ≤ n)
    (hwrites : ∀ nonce e, (f nonce e).All (Act.WritesOnly e))
    (hends : ∀ nonce e, (f nonce e).Ends Unpanicked) :
    (mintNonce.bind fun nonce => utcNow.bind fun now => (lifetime unit perUnit n now).bind (f nonce)).Paths
      (SoundWhenLasts perUnit n) := by
  intro nonce now
  show ((lifetime unit perUnit n now).bind (f nonce)).Paths _
  rcases lifetime_eq unit perUnit n now with ⟨hlasts, hlife⟩ | ⟨hlate, m, hlife⟩
  · rw [hlife, Prog.bind_ret]
    refine (Prog.paths_of_all (hwrites nonce _) (hends nonce _)).mono fun evs o h => ?_
    obtain ⟨hacts, ho⟩ := h
    have hminted : ∀ t, MintedAt t (⟨.mintNonce, nonce⟩ :: ⟨.now, now⟩ :: evs) → t = now := by
      intro t hm
      rcases mintedAt_cons.mp hm with ⟨nonce', after, -, hevs⟩ | hm
      · cases hevs
        rfl
      · rw [mintedAt_after (by simp)] at hm
        exact absurd hm (not_mintedAt fun ev hev => (hacts ev hev).1)
    refine iff_of_true ⟨ho, fun ev hev x hx => ⟨⟨now, [], nonce, evs, rfl⟩, fun t hm => ?_⟩⟩ fun t hm => ?_
    · have hx' : x = now + seconds (n * perUnit) := by
        rcases List.mem_cons.mp hev with rfl | hev
        · cases hx
        rcases List.mem_cons.mp hev with rfl | hev
        · cases hx
        · exact (hacts ev hev).2 x hx
      have hpos : 0 < n * perUnit := Int.mul_pos (by omega) hunit
      rw [hx', hminted t hm]
      exact Int.lt_add_of_pos_right now (Int.mul_pos hpos (by decide))
    · rw [hminted t hm]
      exact hlasts
  · rw [hlife]
    refine iff_of_false (fun h => h.1 m rfl) fun h => hlate (h now ⟨[], nonce, [], rfl⟩)

end

/-! ## The verbs -/

section
variable (P : Portal)

theorem Act.Verifies.unminting {a : Act} (h : a.Verifies) : a.Unminting := by
  cases a with
  | sql q => cases q <;> first | exact h.elim | exact ⟨by simp, rfl⟩
  | now => exact ⟨by simp, rfl⟩
  | _ => exact h.elim

theorem newUuid_unminting : (newUuid : Verb Uuid).All Act.Unminting := ⟨⟨by simp, rfl⟩, fun _ => trivial⟩

theorem newUuid_unpanicked : (newUuid : Verb Uuid).Ends Unpanicked := fun _ _ h => nomatch h

theorem verifyBearer_unpanicked (link : String) : (P.verifyBearer link).Ends Unpanicked := by
  apply unpanicked_bind (unpanicked_ofExcept _)
  intro secret
  split
  · exact unpanicked_refuse _
  apply unpanicked_bind (unpanicked_query _)
  intro row
  split
  · exact unpanicked_refuse _
  split
  · exact unpanicked_refuse _
  intro now
  show Prog.Ends _ (ite _ _ _)
  split
  · exact unpanicked_refuse _
  split
  · exact unpanicked_refuse _
  apply unpanicked_bind (unpanicked_query _)
  intro status
  split
  · exact unpanicked_refuse _
  split
  · exact unpanicked_refuse _
  exact fun _ _ h => nomatch h

theorem mintBearer_sound (user : Uuid) (ttl : Int) :
    (P.mintBearer user ttl).Paths (SoundWhenLasts 3600 (max ttl 1)) := by
  apply soundWhenLasts_bind (all_ofExcept _) (unpanicked_ofExcept _)
  intro secret
  apply soundWhenLasts_bind newUuid_unminting newUuid_unpanicked
  intro id
  refine soundWhenLasts_mint (by decide) (Int.le_max_right ttl 1) (fun nonce e => ?_) fun nonce e => ?_
  · exact .bind (all_query ⟨by simp, by simp [Act.expiry]⟩) fun _ =>
      .bind (all_query ⟨by simp, by simp [Act.expiry]⟩) fun _ =>
      all_ofExcept _
  · exact unpanicked_bind (unpanicked_query _) fun _ =>
      unpanicked_bind (unpanicked_query _) fun _ => unpanicked_ofExcept _

theorem rotateBearer_sound (link : String) (ttl : Int) :
    (P.rotateBearer link ttl).Paths (SoundWhenLasts 3600 (max ttl 1)) := by
  refine soundWhenLasts_bind (verifyBearer_all P (fun _ h => h.unminting) link)
    (verifyBearer_unpanicked P link) fun principal => ?_
  split
  · exact iff_of_true ⟨unpanicked_fail, fun ev h => (nomatch h)⟩ fun t hm =>
      absurd hm (not_mintedAt fun ev h => nomatch h)
  apply soundWhenLasts_bind newUuid_unminting newUuid_unpanicked
  intro id
  refine soundWhenLasts_mint (by decide) (Int.le_max_right ttl 1) (fun nonce e => ?_) fun nonce e => ?_
  · refine .bind (all_query ⟨by simp, by simp [Act.expiry]⟩) fun rotated => ?_
    split
    · trivial
    · exact .bind (all_query ⟨by simp, by simp [Act.expiry]⟩) fun _ => all_ofExcept _
  · apply unpanicked_bind (unpanicked_query _)
    intro rotated
    split
    · exact unpanicked_refuse _
    · exact unpanicked_bind (unpanicked_query _) fun _ => unpanicked_ofExcept _

def grantedDays (ttlDays : Int) : Int := if 1 ≤ ttlDays then ttlDays else defaultInviteTtlDays

theorem mintInvite_sound (email : String) (grantedBy : Option Uuid) (ttl : Int) :
    (P.mintInvite email grantedBy ttl).Paths (SoundWhenLasts 86400 (grantedDays ttl)) := by
  unfold Portal.mintInvite
  dsimp only
  split
  · exact iff_of_true ⟨unpanicked_fail, fun ev h => (nomatch h)⟩ fun t hm =>
      absurd hm (not_mintedAt fun ev h => nomatch h)
  apply soundWhenLasts_bind newUuid_unminting newUuid_unpanicked
  intro id
  refine soundWhenLasts_mint (by decide) ?_ (fun nonce e => ?_) fun nonce e => ?_
  · unfold grantedDays
    split
    next h => exact h
    next => decide
  · exact .bind (all_query ⟨by simp, by simp [Act.expiry]⟩) fun _ =>
      .bind (all_query ⟨by simp, by simp [Act.expiry]⟩) fun _ =>
      all_ofExcept _
  · exact unpanicked_bind (unpanicked_query _) fun _ =>
      unpanicked_bind (unpanicked_query _) fun _ => unpanicked_ofExcept _

/-- **Lifetimes**: on every path of a mint or a rotation, whatever it is asked
for, the expiry is sound exactly if it can be represented. -/
theorem expiries_sound_iff :
    (∀ user ttl, (P.mintBearer user ttl).Paths (SoundWhenLasts 3600 (max ttl 1))) ∧
      (∀ link ttl, (P.rotateBearer link ttl).Paths (SoundWhenLasts 3600 (max ttl 1))) ∧
      ∀ email grantedBy ttl,
        (P.mintInvite email grantedBy ttl).Paths (SoundWhenLasts 86400 (grantedDays ttl)) :=
  ⟨mintBearer_sound P, rotateBearer_sound P, mintInvite_sound P⟩

end

/-- The longest lifetimes that can be asked for. -/
theorem lifetimes_overflow :
    ¬(Probe.portal.mintBearer (Probe.uuid 2) (2 ^ 63 - 1)).Paths ExpirySound ∧
      ¬(Probe.portal.mintInvite Probe.email none (2 ^ 63 - 1)).Paths ExpirySound := by
  constructor
  · intro h
    have hrun := h.run (M := portalMachine) (fun _ => Probe.env) (Probe.world Probe.enrolled)
    exact hrun.1 "TimeDelta::hours out of bounds" (by decide +kernel)
  · intro h
    have hrun := h.run (M := portalMachine) (fun _ => Probe.env) (Probe.world Probe.enrolled)
    exact hrun.1 "TimeDelta::days out of bounds" (by decide +kernel)

end BackbonePortal
