import BackbonePortal.Chains
import BackbonePortal.Footprint
import BackbonePortal.Verification

/-!
# Rotation chains

`rotated_to` links the bearers of a principal into chains. The law holds in
every state of every run: the conditional UPDATE spends an active row only, and
its successor is a fresh key.
-/

namespace BackbonePortal

open Proc Tables Chains Relation

/-- The row `rotated_to` names. -/
def successorOf (T : Table tokenSchema) (id : Uuid) : Option Uuid := (T.get id).bind (·.rotatedTo)

structure RotationLaw (T : Table tokenSchema) : Prop where
  linked : ∀ t ∈ T.rows, t.status = .rotated ↔ t.rotatedTo.isSome
  named : ∀ t ∈ T.rows, ∀ id, t.rotatedTo = some id → ∃ s, T.get id = some s ∧ s.userId = t.userId
  chained : Chained (successorOf T)

section
variable {T U : Table tokenSchema}

theorem successorOf_row {t : PortalToken} (ht : t ∈ T.rows) : successorOf T t.id = t.rotatedTo := by
  rw [successorOf, show T.get t.id = some t from Table.get_key ht]
  rfl

theorem successorOf_eq_some {a b : Uuid} (h : successorOf T a = some b) :
    ∃ t ∈ T.rows, t.id = a ∧ t.rotatedTo = some b := by
  obtain ⟨t, ht, hb⟩ := Option.bind_eq_some_iff.mp h
  exact ⟨t, (Table.get_eq_some.mp ht).1, (Table.get_eq_some.mp ht).2, hb⟩

theorem RotationLaw.empty : RotationLaw (Table.empty : Table tokenSchema) :=
  ⟨fun _ h => (nomatch h), fun _ h => (nomatch h), chained_none⟩

theorem RotationLaw.update (h : RotationLaw T) {p : PortalToken → Bool} {f : PortalToken → PortalToken}
    {hk : ∀ t, tokenSchema.key (f t) = tokenSchema.key t} {hi : ∀ t, tokenSchema.idx (f t) = tokenSchema.idx t}
    {rs : List PortalToken} (hu : T.update p f hk hi = .ok (rs, U))
    (hf : ∀ t, p t = true → (f t).rotatedTo = t.rotatedTo ∧ (f t).userId = t.userId ∧
      ((f t).status = .rotated ↔ t.status = .rotated)) : RotationLaw U := by
  have hg : ∀ t, (if p t then f t else t).rotatedTo = t.rotatedTo ∧ (if p t then f t else t).userId = t.userId ∧
      ((if p t then f t else t).status = .rotated ↔ t.status = .rotated) := by
    intro t
    split
    next hp => exact hf t hp
    next => exact ⟨rfl, rfl, Iff.rfl⟩
  have hrows := (Table.update_eq_ok hu).2
  have hsucc : successorOf U = successorOf T := by
    funext id
    rw [successorOf, Table.update_get hu, successorOf, Option.bind_map]
    cases T.get id with
    | none => rfl
    | some t => exact (hg t).1
  refine ⟨fun s hs => ?_, fun s hs id hid => ?_, hsucc ▸ h.chained⟩
  · rw [hrows] at hs
    obtain ⟨t, ht, rfl⟩ := List.mem_map.mp hs
    rw [(hg t).1, (hg t).2.2]
    exact h.linked t ht
  · rw [hrows] at hs
    obtain ⟨t, ht, rfl⟩ := List.mem_map.mp hs
    rw [(hg t).1] at hid
    obtain ⟨r, hr, hru⟩ := h.named t ht id hid
    refine ⟨if p r then f r else r, by rw [Table.update_get hu, hr]; rfl, ?_⟩
    rw [(hg r).2.1, (hg t).2.1, hru]

theorem RotationLaw.insert (h : RotationLaw T) {r : PortalToken} (hi : T.insert r = .ok U)
    (hr : r.status = .active) (hto : r.rotatedTo = none) : RotationLaw U := by
  obtain ⟨hnone, hself⟩ := Table.insert_get_self hi
  have hrows := (Table.insert_eq_ok.mp hi).2
  have hsucc : successorOf U = successorOf T := by
    funext id
    by_cases hid : r.id = id
    · subst hid
      rw [successorOf, show U.get r.id = some r from hself, successorOf, show T.get r.id = none from hnone]
      exact hto
    · rw [successorOf, Table.insert_get_other hi hid, successorOf]
  refine ⟨fun s hs => ?_, fun s hs id hid => ?_, hsucc ▸ h.chained⟩
  · rw [hrows] at hs
    rcases List.mem_append.mp hs with hs | hs
    · exact h.linked s hs
    · cases List.mem_singleton.mp hs
      simp [hr, hto]
  · rw [hrows] at hs
    rcases List.mem_append.mp hs with hs | hs
    · obtain ⟨q, hq, hqu⟩ := h.named s hs id hid
      refine ⟨q, ?_, hqu⟩
      rw [Table.insert_get hi, hq]
      rfl
    · cases List.mem_singleton.mp hs
      rw [hto] at hid; cases hid

theorem RotationLaw.rotate (h : RotationLaw T) {V : Table tokenSchema} {id successor user : Uuid}
    {nonce : String}
    {expires now : Instant} {t : PortalToken} (ht : t ∈ T.rows) (hid : t.id = id) (hact : t.status = .active)
    (huser : t.userId = user)
    (hu : T.update (fun t => t.id = id && t.status = .active) (·.rotate successor now) (fun _ => rfl)
      (fun _ => rfl) = .ok ([t.rotate successor now], U))
    (hi : U.insert (.fresh successor user nonce expires now) = .ok V) : RotationLaw V := by
  obtain ⟨hnone, hself⟩ := Table.insert_get_self hi
  have hgetU : ∀ k, U.get k = (T.get k).map fun r =>
      if (r.id = id && r.status = .active) then r.rotate successor now else r := Table.update_get hu
  have hrowsU := (Table.update_eq_ok hu).2
  have hrowsV := (Table.insert_eq_ok.mp hi).2
  -- the spent row is the only one the UPDATE changes
  have honly : ∀ s ∈ T.rows, (s.id = id && s.status = .active) = true → s = t := fun s hs hp =>
    T.key_inj hs ht ((of_decide_eq_true (Bool.and_eq_true_iff.mp hp).1).trans hid.symm)
  have htp : (t.id = id && t.status = .active) = true := by simp [hid, hact]
  have hfree : T.get successor = none := by
    have : U.get successor = none := hnone
    rw [hgetU, Option.map_eq_none_iff] at this
    exact this
  have hne : id ≠ successor := by
    rintro rfl
    rw [← hid, show T.get t.id = some t from Table.get_key ht] at hfree
    cases hfree
  have hlast : t.rotatedTo = none := by
    have hl := h.linked t ht
    rw [hact] at hl
    simpa using hl
  have hsucc : successorOf V = Function.update (successorOf T) id (some successor) := by
    funext k
    by_cases hk : k = id
    · subst hk
      rw [Function.update_self, successorOf, Table.insert_get_other hi (Ne.symm hne), hgetU,
        show T.get k = some t from Table.get_eq_some.mpr ⟨ht, hid⟩, Option.map_some, if_pos htp]
      rfl
    · rw [Function.update_of_ne hk, successorOf, successorOf]
      by_cases hks : successor = k
      · subst hks
        rw [show V.get successor = _ from hself, hfree]
        rfl
      · rw [Table.insert_get_other hi hks, hgetU]
        cases hg : T.get k with
        | none => rfl
        | some s =>
          have hs : s.id = k := (Table.get_eq_some.mp hg).2
          rw [Option.map_some, if_neg (by simp [hs, hk])]
  have hchain : Chained (successorOf V) := by
    rw [hsucc]
    apply h.chained.extend (by rw [successorOf, hfree]; rfl) hne
    intro c hc
    obtain ⟨s, hs, -, hto⟩ := successorOf_eq_some hc
    obtain ⟨q, hq, -⟩ := h.named s hs successor hto
    rw [hfree] at hq; cases hq
  refine ⟨fun s hs => ?_, fun s hs k hk => ?_, hchain⟩
  · rw [hrowsV] at hs
    rcases List.mem_append.mp hs with hs | hs
    · rw [hrowsU] at hs
      obtain ⟨r, hr, rfl⟩ := List.mem_map.mp hs
      split
      · exact ⟨fun _ => rfl, fun _ => rfl⟩
      · exact h.linked r hr
    · cases List.mem_singleton.mp hs
      exact ⟨fun h => (nomatch h), fun h => (nomatch h)⟩
  · -- the successor of a row is the fresh row, or one the UPDATE kept
    have kept : ∀ r ∈ T.rows, r.rotatedTo = some k → ∃ q, V.get k = some q ∧ q.userId = r.userId := by
      intro r hr hrk
      obtain ⟨q, hq, hqu⟩ := h.named r hr k hrk
      have hks : successor ≠ k := fun e => by rw [← e, hfree] at hq; cases hq
      refine ⟨_, by rw [Table.insert_get_other hi hks, hgetU, hq]; rfl, ?_⟩
      dsimp only
      split <;> exact hqu
    rw [hrowsV] at hs
    rcases List.mem_append.mp hs with hs | hs
    · rw [hrowsU] at hs
      obtain ⟨r, hr, rfl⟩ := List.mem_map.mp hs
      split at hk
      next hp =>
        cases hk
        rw [if_pos hp]
        exact ⟨_, hself, by rw [honly r hr hp]; exact huser.symm⟩
      next hp =>
        rw [if_neg hp]
        exact kept r hr hk
    · cases List.mem_singleton.mp hs
      cases hk

end

/-! ## The statements keep the law -/

def OwnsRotated : Act → World → Prop
  | .sql (.rotateToken id _ user _ _), w => ∃ t, w.db.tokens.get id = some t ∧ t.userId = user
  | _, _ => True

theorem exec_rotationLaw (q : Stmt) {now : Instant} {scan : Nat} {w : World} {db' : Db} {r : q.Res}
    (hlaw : RotationLaw w.db.tokens) (hown : OwnsRotated (.sql q) w)
    (h : q.exec now scan w.db = .ok (r, db')) : RotationLaw db'.tokens := by
  cases q with
  | insertToken id user nonce expires =>
    obtain ⟨tokens, ht, -, rfl⟩ := Db.insertToken_ok (exec_insertToken h)
    exact hlaw.insert ht rfl rfl
  | touchLastUsed id =>
    obtain ⟨tokens, hu, -, rfl⟩ := Db.updateTokens_ok h
    exact hlaw.update hu fun _ _ => ⟨rfl, rfl, Iff.rfl⟩
  | rotateToken id successor user nonce expires =>
    rcases exec_rotateToken h with ⟨-, rfl⟩ | ⟨spent, t, -, ht, hid, hact, hu, hi⟩
    · exact hlaw
    · obtain ⟨tokens, hin, -, rfl⟩ := Db.insertToken_ok hi
      obtain ⟨s, hs, hsu⟩ := hown
      have hst : s = t := w.db.tokens.key_inj (Table.get_eq_some.mp hs).1 ht
        ((Table.get_eq_some.mp hs).2.trans hid.symm)
      exact hlaw.rotate ht hid hact (hst ▸ hsu) hu hin
  | revokeToken id reason =>
    obtain ⟨tokens, hu, -, rfl⟩ := Db.updateTokens_ok h
    refine hlaw.update hu fun t ht => ⟨rfl, rfl, ?_⟩
    simp only [Bool.and_eq_true, decide_eq_true_eq] at ht
    simp [PortalToken.revoke, ht.2]
  | revokeUserTokens user reason =>
    obtain ⟨tokens, hu, -, rfl⟩ := Db.updateTokens_ok h
    refine hlaw.update hu fun t ht => ⟨rfl, rfl, ?_⟩
    simp only [Bool.and_eq_true, decide_eq_true_eq] at ht
    simp [PortalToken.revoke, ht.2]
  | _ => rw [(exec_framed _ h).tokens (by simp [Stmt.writes])]; exact hlaw

theorem act_rotationLaw (a : Act) (i : Env) (w : World) (hlaw : RotationLaw w.db.tokens)
    (hown : OwnsRotated a w) :
    RotationLaw (a.exec i w).2.db.tokens := by
  cases a with
  | sql q =>
    show RotationLaw (q.answer i w.db).2.tokens
    cases h : (q.answer i w.db).1 with
    | error e => rw [Stmt.answer_error h]; exact hlaw
    | ok r => exact exec_rotationLaw q hlaw hown (Stmt.answer_ok h).2
  | _ => exact hlaw

/-! ## Every call keeps the law -/

section
variable {P : Portal} {α : Type} {w : World}

def Act.Unrotating : Act → Prop
  | .sql (.rotateToken ..) => False
  | _ => True

theorem Act.Plain.unrotating {a : Act} (h : a.Plain) : a.Unrotating := by
  cases a with
  | sql q => cases q <;> trivial
  | _ => trivial

theorem Act.Unrotating.owns {a : Act} (h : a.Unrotating) : OwnsRotated a w := by
  cases a with
  | sql q => cases q <;> trivial
  | _ => trivial

theorem owns_trivial {p : Verb α} (ha : p.All Act.Unrotating) : Guarded OwnsRotated (fun _ _ => True) p w :=
  (ensures_trivial p).guarded (fun _ _ h => h.owns) ha

theorem rotateBearer_owns (link : String) (ttl : Int) :
    Guarded OwnsRotated (fun _ _ => True) (P.rotateBearer link ttl) w := by
  have hun : ∀ a, Act.Basic a → Act.Unrotating a := fun _ h => h.common.plain.unrotating
  unfold Portal.rotateBearer
  refine guarded_bind ((verifyBearer_ensures P link w).guarded (fun _ _ h => h.owns)
    (verifyBearer_all P (fun a h => hun a h.basic) link))
    (fun p w₀ h => ?_) fun _ _ _ => trivial
  rcases h with ⟨e, he, -⟩ | ⟨p', hp', hb, -⟩
  · cases he
  cases hp'
  split
  · exact fun _ _ => trivial
  next parts hparts =>
    refine guarded_step (fun _ _ => trivial) fun _ w₁ h₁ => guarded_step (fun _ _ => trivial) fun _ w₂ h₂ =>
      guarded_step (fun _ _ => trivial) fun _ w₃ h₃ => guarded_lifetime (fun _ _ _ => trivial) fun expires => ?_
    refine guarded_query (fun w₄ h₄ => ?_) (fun _ _ _ => trivial) fun _ _ _ rotated _ => owns_trivial ?_
    · obtain ⟨parts', t, hparts', ht, htu⟩ := (((hb.later h₁).later h₂).later h₃).later h₄
      rw [hparts] at hparts'; cases hparts'
      exact ⟨t, ht, htu⟩
    · cases rotated with
      | false => trivial
      | true => exact .bind (audit_all (basic_enters hun) (by simp)) fun _ => all_ofExcept _

theorem rotateRoute_owns (headers : Headers) (body : Body RotateRequest) :
    Guarded OwnsRotated (fun _ _ => True) (P.rotateRoute headers body) w := by
  have hun : ∀ a, Act.Basic a → Act.Unrotating a := fun _ h => h.common.plain.unrotating
  cases body with
  | error e => exact fun _ _ => trivial
  | ok b =>
    refine guarded_bind (owns_trivial (checkNow_all (basic_enters hun) _).attempt)
      (fun r w _ => ?_) fun _ _ _ => trivial
    split
    · exact fun _ _ => trivial
    · exact fun _ _ => trivial
    refine guarded_answered (rotateBearer_owns _ _) fun e w => owns_trivial ?_
    split
    · exact .bind (registerNow_all (basic_enters hun) _) fun _ => trivial
    · trivial

theorem serve_owns (t : Request) : Guarded OwnsRotated (fun _ _ => True) (P.serve t) w := by
  have hun : ∀ a, Act.Basic a → Act.Unrotating a := fun _ h => h.common.plain.unrotating
  by_cases hf : t.Fenced
  · cases t with
    | rotateBearer link ttl =>
      exact guarded_bind (rotateBearer_owns link ttl) (fun _ _ _ _ _ => trivial) fun _ _ _ => trivial
    | redeem link email =>
      exact owns_trivial (.bind (redeem_all P hun (fun _ _ _ => trivial) link email) fun _ => trivial)
    | route r =>
      refine guarded_bind (R := fun _ _ => True) ?_ (fun _ _ _ _ _ => trivial) fun _ _ _ => trivial
      cases r with
      | redeemInvite headers body =>
        exact owns_trivial (redeemInviteRoute_all P hun (fun _ _ _ => trivial) headers body)
      | login headers body => exact owns_trivial (loginRoute_all P hun headers body)
      | signup headers body => exact owns_trivial (signupRoute_all P hun (fun _ _ => trivial) headers body)
      | rotate headers body => exact rotateRoute_owns headers body
    | _ => exact hf.elim
  · exact owns_trivial ((serve_plain P hf).mono fun _ => Act.Plain.unrotating)

end

/-! ## One rotation a bearer -/

def Rotates (id : Uuid) : Event portalSig → Prop
  | ⟨.sql (.rotateToken k _ _ _ _), r⟩ => k = id ∧ r = .ok true
  | _ => False

def Spent (id : Uuid) (w : World) : Prop := ∃ t, w.db.tokens.get id = some t ∧ t.status ≠ .active

def Request.RotatesBearer (id : Uuid) : Request → Prop
  | .rotateBearer link _ => ∃ parts, parseCapability link = some parts ∧ parts.id = id
  | _ => False

section
variable {P : Portal} {id : Uuid}

theorem Spent.later {w w' : World} (h : Spent id w) (hg : Grows w w') : Spent id w' := by
  obtain ⟨t, ht, hs⟩ := h
  obtain ⟨s, hs', hk⟩ := hg.tokens.get ht
  exact ⟨s, hs', (hk.2.2.2.2 hs).1 ▸ hs⟩

theorem rotates_fires (a : Act) (i : Env) (w : World) (h : Rotates id ⟨a, (a.exec i w).1⟩) :
    ¬Spent id w ∧ Spent id (a.exec i w).2 := by
  cases a with
  | sql q =>
    cases q with
    | rotateToken k successor user nonce expires =>
      obtain ⟨rfl, hr⟩ := h
      obtain ⟨-, hq⟩ := Stmt.answer_ok hr
      rcases exec_rotateToken hq with ⟨hb, -⟩ | ⟨spent, t, -, ht, rfl, hact, hu, hi⟩
      · cases hb
      have hget : w.db.tokens.get t.id = some t := Table.get_key ht
      refine ⟨?_, ?_⟩
      · rintro ⟨s, hs, hne⟩
        rw [hget] at hs; cases hs
        exact hne hact
      · have hu' := Table.update_get hu t.id
        rw [hget, Option.map_some, if_pos (by simp [hact])] at hu'
        obtain ⟨s, hs, hk⟩ := (insertToken_evolves hi).tokens.get hu'
        exact ⟨s, hs, by rw [(hk.2.2.2.2 (by simp [PortalToken.rotate])).1]; simp [PortalToken.rotate]⟩
    | _ => exact h.elim
  | _ => exact h.elim

theorem rotateBearer_needs {t : Request} (ht : t.RotatesBearer id) : (P.serve t).Needs (Rotates id) := by
  cases t with
  | rotateBearer link ttl =>
    obtain ⟨parts, hp, rfl⟩ := ht
    refine Prog.Needs.bind_left (Prog.Needs.bind_right fun p => ?_)
    rw [hp]
    refine Prog.Needs.bind_right fun _ => Prog.Needs.bind_right fun _ => Prog.Needs.bind_right fun _ =>
      Prog.Needs.bind_right fun _ => fun r => ?_
    cases r with
    | error e => exact .inr trivial
    | ok b =>
      cases b with
      | false => exact .inr trivial
      | true => exact .inl ⟨rfl, rfl⟩
  | _ => exact ht.elim

end

/-- **Rotation chains never fork.** -/
theorem rotation_chains_never_fork (P : Portal) (w : World) (hw : w.db.tokens = .empty)
    (ms : List (Move portalMachine Request)) :
    let pool := (⟨w, []⟩ : Pool portalMachine Halt Reply Request).play P.serve ms
    let T := pool.world.db.tokens
    RotationLaw T ∧
    (∀ t ∈ T.rows, t.status = .active → successorOf T t.id = none ∧
      ∀ s ∈ T.rows, s.status = .active → EqvGen (Step (successorOf T)) t.id s.id → t = s) ∧
    (∀ ns, ∀ t ∈ T.rows, ∃ s, (pool.play P.serve ns).world.db.tokens.get t.id = some s ∧ s.userId = t.userId ∧
      (t.status ≠ .active → s.status = t.status ∧ s.rotatedTo = t.rotatedTo)) ∧
    ∀ id (j j' : Nat) c c' r r', pool.calls[j]? = some c → pool.calls[j']? = some c' →
      c.tag.RotatesBearer id → c'.tag.RotatesBearer id → c.outcome = some (.ok r) → c'.outcome = some (.ok r') →
      j = j' := by
  intro pool T
  obtain ⟨-, hlaw, -⟩ := Pool.guards_play (M := portalMachine) (G := Grows) P.serve
    (fun w => RotationLaw w.db.tokens) ⟨w, []⟩ (fun _ _ _ _ => True) Grows.refl (fun _ _ _ => Grows.trans)
    (fun a i w hl hp => ⟨grows_exec a i w, act_rotationLaw a i w hl hp⟩) (fun _ t _ _ _ => serve_owns t)
    (hw ▸ RotationLaw.empty) (fun j c hc => by simp at hc) ms
  have last : ∀ t ∈ T.rows, t.status = .active → successorOf T t.id = none := by
    intro t ht hact
    rw [successorOf_row ht]
    have := hlaw.linked t ht
    rw [hact] at this
    simpa using this
  refine ⟨hlaw, fun t ht hact => ⟨last t ht hact, fun s hs hsact he => ?_⟩, fun ns t ht => ?_, ?_⟩
  · exact T.key_inj ht hs (hlaw.chained.last_unique he (last t ht hact) (last s hs hsact))
  · have hG : Grows pool.world (pool.play P.serve ns).world :=
      Pool.play_world (M := portalMachine) P.serve (I := Grows pool.world)
        (fun a i w h => h.trans (grows_exec a i w)) (Grows.refl _) ns
    obtain ⟨s, hs, hu, -, -, -, hk⟩ := hG.tokens.get (Table.get_key ht)
    exact ⟨s, hs, hu, hk⟩
  · intro id j j' c c' r r' hc hc' ht ht' ho ho'
    have hdid := Pool.play_needs (M := portalMachine) P.serve (T := Request.RotatesBearer id)
      (fun t => rotateBearer_needs) ⟨w, []⟩ rfl ms
    exact (Pool.play_once (M := portalMachine) P.serve rotates_fires
      (fun a i w h => h.later (grows_exec a i w)) ⟨w, []⟩ rfl ms).2 j j' c c' hc hc' (hdid j c r hc ht ho)
      (hdid j' c' r' hc' ht' ho')

def Probe.rotation : List (Move portalMachine Request) :=
  let first : Env := { Probe.env with uuid := Probe.uuid 3 }
  let second : Env := { Probe.env with uuid := Probe.uuid 4, nonce := 7 }
  [.start (.mintBearer (Probe.uuid 2) 24)] ++ List.replicate 5 (.step 0 first) ++
    [.start (.rotateBearer Probe.bearerLink 24)] ++ List.replicate 9 (.step 1 second)

theorem rotation_chains_never_fork_probe :
    let T := ((⟨Probe.world Probe.enrolled, []⟩ : Pool portalMachine Halt Reply Request).play Probe.portal.serve
      Probe.rotation).world.db.tokens
    RotationLaw T ∧ T.rows.map (fun t => (t.status, t.rotatedTo)) =
      [(.rotated, some (Probe.uuid 4)), (.active, none)] :=
  ⟨(rotation_chains_never_fork Probe.portal (Probe.world Probe.enrolled) rfl Probe.rotation).1, by
    rw [Probe.rotation.eq_1]
    simp -implicitDefEqProofs only [Pool.play_append, Pool.play_cons, Pool.next_start]
    rw [serve_rotateBearer, Portal.rotateBearer.eq_1, Portal.verifyBearer.eq_1, Probe.parse_bearerLink]
    decide +kernel⟩

end BackbonePortal
