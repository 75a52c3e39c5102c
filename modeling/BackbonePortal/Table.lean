import Mathlib.Data.List.Nodup
import Mathlib.Data.List.Perm.Basic

/-!
# Tables under constraints

A table carries a primary key, one unique partial index and CHECK constraints,
and a value of `Table S` satisfies them. A statement that would break one of
them answers the constraint's name and changes nothing.
-/

namespace Tables

/-- A key, a unique index over the rows where `idx` is defined, and CHECK
constraints by name. -/
structure Schema (ρ κ ι : Type) where
  pkey : String
  key : ρ → κ
  index : String
  idx : ρ → Option ι
  checks : List (String × (ρ → Bool))

variable {ρ κ ι : Type} {S : Schema ρ κ ι}

def Schema.broken (S : Schema ρ κ ι) (r : ρ) : Option String :=
  (S.checks.find? fun c => !c.2 r).map Prod.fst

structure Table (S : Schema ρ κ ι) where
  rows : List ρ
  keyed : (rows.map S.key).Nodup
  indexed : (rows.filterMap S.idx).Nodup
  checked : ∀ r ∈ rows, S.broken r = none

namespace Table

@[ext] theorem ext {t u : Table S} (h : t.rows = u.rows) : t = u := by
  cases t; cases u; cases h; rfl

def empty : Table S := ⟨[], List.nodup_nil, List.nodup_nil, fun _ h => nomatch h⟩

@[simp] theorem rows_empty : (empty : Table S).rows = [] := rfl

def single (r : ρ) (h : S.broken r = none) : Table S where
  rows := [r]
  keyed := List.nodup_singleton _
  indexed := by cases hi : S.idx r <;> simp [hi]
  checked s hs := by cases List.mem_singleton.mp hs; exact h

theorem key_inj (t : Table S) {r s : ρ} (hr : r ∈ t.rows) (hs : s ∈ t.rows) (h : S.key r = S.key s) : r = s :=
  List.inj_on_of_nodup_map t.keyed hr hs h

theorem idx_inj (t : Table S) {r s : ρ} (hr : r ∈ t.rows) (hs : s ∈ t.rows) {i : ι} (hri : S.idx r = some i)
    (hsi : S.idx s = some i) : r = s := by
  have key : ∀ rows : List ρ, (rows.filterMap S.idx).Nodup → r ∈ rows → s ∈ rows → r = s := by
    intro rows
    induction rows with
    | nil => intro _ h; cases h
    | cons x rows ih =>
      intro hn hr hs
      cases hx : S.idx x with
      | none =>
        rw [List.filterMap_cons_none hx] at hn
        have hrx : r ≠ x := fun e => by rw [e, hx] at hri; cases hri
        have hsx : s ≠ x := fun e => by rw [e, hx] at hsi; cases hsi
        exact ih hn ((List.mem_cons.mp hr).resolve_left hrx) ((List.mem_cons.mp hs).resolve_left hsx)
      | some j =>
        rw [List.filterMap_cons_some hx, List.nodup_cons] at hn
        rcases List.mem_cons.mp hr with rfl | hr'
        · rcases List.mem_cons.mp hs with rfl | hs'
          · rfl
          · rw [hri] at hx; cases hx
            exact absurd (List.mem_filterMap.mpr ⟨s, hs', hsi⟩) hn.1
        · rcases List.mem_cons.mp hs with rfl | hs'
          · rw [hsi] at hx; cases hx
            exact absurd (List.mem_filterMap.mpr ⟨r, hr', hri⟩) hn.1
          · exact ih hn.2 hr' hs'
  exact key t.rows t.indexed hr hs

theorem filter_idx (t : Table S) {p : ρ → Bool} {i : ι} (hp : ∀ r ∈ t.rows, p r = true → S.idx r = some i) :
    t.rows.filter p = (t.rows.find? p).toList := by
  have hall : ∀ r ∈ t.rows.filter p, ∀ s ∈ t.rows.filter p, r = s := fun r hr s hs => by
    obtain ⟨hr, hpr⟩ := List.mem_filter.mp hr
    obtain ⟨hs, hps⟩ := List.mem_filter.mp hs
    exact t.idx_inj hr hs (hp r hr hpr) (hp s hs hps)
  have hn : (t.rows.filter p).Nodup := (List.Nodup.of_map _ t.keyed).filter _
  rw [← List.head?_filter]
  cases hf : t.rows.filter p with
  | nil => rfl
  | cons r rs =>
    cases rs with
    | nil => rfl
    | cons s rs =>
      rw [hf] at hall hn
      have hrs := hall r List.mem_cons_self s (List.mem_cons_of_mem _ List.mem_cons_self)
      exact absurd (hrs ▸ List.mem_cons_self) (List.nodup_cons.mp hn).1

/-! ## Reading -/

section
variable [DecidableEq κ]

def get (t : Table S) (k : κ) : Option ρ := t.rows.find? fun r => decide (S.key r = k)

theorem get_eq_some {t : Table S} {k : κ} {r : ρ} : t.get k = some r ↔ r ∈ t.rows ∧ S.key r = k := by
  constructor
  · intro h
    exact ⟨List.mem_of_find?_eq_some h, by simpa using List.find?_some h⟩
  · rintro ⟨hr, rfl⟩
    cases h : t.get (S.key r) with
    | none => exact absurd (decide_eq_true rfl) (List.find?_eq_none.mp h r hr)
    | some s =>
      have hs : S.key s = S.key r := by simpa using List.find?_some h
      rw [t.key_inj (List.mem_of_find?_eq_some h) hr hs]

theorem get_eq_none {t : Table S} {k : κ} : t.get k = none ↔ ∀ r ∈ t.rows, S.key r ≠ k := by
  simp only [get, List.find?_eq_none, decide_eq_true_eq, ne_eq]

theorem get_key {t : Table S} {r : ρ} (hr : r ∈ t.rows) : t.get (S.key r) = some r := get_eq_some.mpr ⟨hr, rfl⟩

theorem filter_key (t : Table S) {p : ρ → Bool} {k : κ} (hp : ∀ r, p r = true → S.key r = k) :
    t.rows.filter p = ((t.get k).filter p).toList := by
  have hall : ∀ s ∈ t.rows.filter p, t.get k = some s := fun s hs =>
    get_eq_some.mpr ⟨(List.mem_filter.mp hs).1, hp s (List.mem_filter.mp hs).2⟩
  cases hf : (t.get k).filter p with
  | none =>
    apply List.eq_nil_iff_forall_not_mem.mpr
    intro s hs
    rw [hall s hs, Option.filter_some, if_pos (List.mem_filter.mp hs).2] at hf
    cases hf
  | some r =>
    obtain ⟨hr, hpr⟩ := Option.filter_eq_some_iff.mp hf
    have hrep : t.rows.filter p = List.replicate (t.rows.filter p).length r :=
      List.eq_replicate_iff.mpr ⟨rfl, fun s hs => Option.some.inj ((hall s hs).symm.trans hr)⟩
    have hn : (t.rows.filter p).Nodup := (List.Nodup.of_map _ t.keyed).filter _
    have hmem : r ∈ t.rows.filter p := List.mem_filter.mpr ⟨(get_eq_some.mp hr).1, hpr⟩
    rw [hrep, List.nodup_replicate] at hn
    have hpos := List.length_pos_of_mem hmem
    rw [hrep, show (t.rows.filter p).length = 1 by omega]
    rfl

theorem filter_key_and (t : Table S) (k : κ) (c : ρ → Bool) :
    (t.rows.filter fun r => decide (S.key r = k) && c r) = ((t.get k).filter c).toList := by
  have hp : ∀ r, (decide (S.key r = k) && c r) = true → S.key r = k := fun r h =>
    of_decide_eq_true (Bool.and_eq_true_iff.mp h).1
  rw [t.filter_key hp]
  cases hg : t.get k with
  | none => rfl
  | some r => simp only [Option.filter_some, (get_eq_some.mp hg).2, decide_true, Bool.true_and]

end

/-! ## Writing -/

section
variable [DecidableEq κ] [DecidableEq ι]

/-- The constraint a new row would break, if any. -/
def conflict (t : Table S) (r : ρ) : Option String :=
  match S.broken r with
  | some c => some c
  | none =>
    if S.key r ∈ t.rows.map S.key then some S.pkey
    else if (S.idx r).any (· ∈ t.rows.filterMap S.idx) then some S.index
    else none

theorem conflict_eq_none {t : Table S} {r : ρ} :
    t.conflict r = none ↔ S.broken r = none ∧ (∀ s ∈ t.rows, S.key s ≠ S.key r) ∧
      ∀ i, S.idx r = some i → ∀ s ∈ t.rows, S.idx s ≠ some i := by
  unfold conflict
  cases hb : S.broken r with
  | some c => simp
  | none =>
    by_cases hk : S.key r ∈ t.rows.map S.key
    · obtain ⟨s, hs, hsk⟩ := List.mem_map.mp hk
      simp only [hk, if_true, reduceCtorEq, true_and, false_iff, not_and]
      exact fun h => absurd hsk (h s hs)
    · have hk' : ∀ s ∈ t.rows, S.key s ≠ S.key r := fun s hs e => hk (List.mem_map.mpr ⟨s, hs, e⟩)
      simp only [hk, if_false, true_and]
      refine Iff.trans ?_ (and_iff_right hk').symm
      cases hi : S.idx r <;> simp

theorem conflict_index {t : Table S} {r s : ρ} {i : ι} (hb : S.broken r = none)
    (hk : ∀ s ∈ t.rows, S.key s ≠ S.key r) (hs : s ∈ t.rows) (hsi : S.idx s = some i) (hri : S.idx r = some i) :
    t.conflict r = some S.index := by
  have hkey : S.key r ∉ t.rows.map S.key := fun h => by
    obtain ⟨q, hq, hqk⟩ := List.mem_map.mp h
    exact hk q hq hqk
  have hidx : (S.idx r).any (· ∈ t.rows.filterMap S.idx) = true := by
    rw [hri]
    exact decide_eq_true (List.mem_filterMap.mpr ⟨s, hs, hsi⟩)
  simp only [conflict, hb, hkey, hidx, if_false, if_true]

def insert (t : Table S) (r : ρ) : Except String (Table S) :=
  match h : t.conflict r with
  | some c => .error c
  | none =>
    .ok {
      rows := t.rows ++ [r]
      keyed := by
        have hk := (conflict_eq_none.mp h).2.1
        rw [List.map_append, List.nodup_append]
        refine ⟨t.keyed, List.nodup_singleton _, ?_⟩
        simp only [List.mem_map, List.map_cons, List.map_nil, List.mem_singleton]
        rintro _ ⟨s, hs, rfl⟩ _ rfl
        exact hk s hs
      indexed := by
        have hi := (conflict_eq_none.mp h).2.2
        rw [List.filterMap_append, List.nodup_append]
        refine ⟨t.indexed, ?_, ?_⟩
        · cases hx : S.idx r <;> simp [hx]
        · intro i his j hj
          obtain ⟨s, hs, hsi⟩ := List.mem_filterMap.mp his
          obtain ⟨r', hr', hri⟩ := List.mem_filterMap.mp hj
          cases List.mem_singleton.mp hr'
          rintro rfl
          exact hi i hri s hs hsi
      checked := by
        intro s hs
        rcases List.mem_append.mp hs with hs | hs
        · exact t.checked s hs
        · cases List.mem_singleton.mp hs
          exact (conflict_eq_none.mp h).1 }

theorem insert_conflict {t : Table S} {r : ρ} {c : String} (h : t.conflict r = some c) :
    t.insert r = .error c := by
  unfold insert
  split
  next c' h' => rw [h] at h'; cases h'; rfl
  next h' => rw [h] at h'; cases h'

theorem insert_eq_ok {t u : Table S} {r : ρ} :
    t.insert r = .ok u ↔ t.conflict r = none ∧ u.rows = t.rows ++ [r] := by
  unfold insert
  split
  next c h => simp [h]
  next h =>
    simp only [Except.ok.injEq, h, true_and]
    exact ⟨fun e => e ▸ rfl, fun e => ext e.symm⟩

theorem insert_eq_error {t : Table S} {r : ρ} {c : String} : t.insert r = .error c ↔ t.conflict r = some c := by
  unfold insert
  split
  next c' h => simp [h]
  next h => simp [h]

theorem insert_get {t u : Table S} {r : ρ} (h : t.insert r = .ok u) (k : κ) :
    u.get k = (t.get k).or (if S.key r = k then some r else none) := by
  simp only [get, (insert_eq_ok.mp h).2, List.find?_append, List.find?_singleton, decide_eq_true_eq]

theorem insert_get_self {t u : Table S} {r : ρ} (h : t.insert r = .ok u) :
    t.get (S.key r) = none ∧ u.get (S.key r) = some r := by
  have hn : t.get (S.key r) = none := get_eq_none.mpr (conflict_eq_none.mp (insert_eq_ok.mp h).1).2.1
  exact ⟨hn, by rw [insert_get h, hn, if_pos rfl]; rfl⟩

theorem insert_get_other {t u : Table S} {r : ρ} {k : κ} (h : t.insert r = .ok u) (hk : S.key r ≠ k) :
    u.get k = t.get k := by rw [insert_get h, if_neg hk, Option.or_none]

end

/-- `UPDATE … SET f WHERE p RETURNING`, for an `f` that leaves the key and the
indexed value alone. The answer holds the rows that matched, as updated. -/
def update (t : Table S) (p : ρ → Bool) (f : ρ → ρ) (hk : ∀ r, S.key (f r) = S.key r)
    (hi : ∀ r, S.idx (f r) = S.idx r) : Except String (List ρ × Table S) :=
  match h : ((t.rows.filter p).map f).findSome? S.broken with
  | some c => .error c
  | none =>
    .ok ((t.rows.filter p).map f, {
      rows := t.rows.map fun r => if p r then f r else r
      keyed := by
        have e : ∀ r, S.key (if p r then f r else r) = S.key r := by
          intro r; split
          · exact hk r
          · rfl
        rw [List.map_map, show S.key ∘ (fun r => if p r then f r else r) = S.key from funext e]
        exact t.keyed
      indexed := by
        have e : ∀ r, S.idx (if p r then f r else r) = S.idx r := by
          intro r; split
          · exact hi r
          · rfl
        rw [List.filterMap_map, show S.idx ∘ (fun r => if p r then f r else r) = S.idx from funext e]
        exact t.indexed
      checked := by
        intro s hs
        obtain ⟨r, hr, rfl⟩ := List.mem_map.mp hs
        split
        next hp =>
          exact List.findSome?_eq_none_iff.mp h _ (List.mem_map.mpr ⟨r, List.mem_filter.mpr ⟨hr, hp⟩, rfl⟩)
        next => exact t.checked r hr })

section
variable {p : ρ → Bool} {f : ρ → ρ} {hk : ∀ r, S.key (f r) = S.key r} {hi : ∀ r, S.idx (f r) = S.idx r}

theorem update_eq_ok {t u : Table S} {rs : List ρ} (h : t.update p f hk hi = .ok (rs, u)) :
    rs = (t.rows.filter p).map f ∧ u.rows = t.rows.map fun r => if p r then f r else r := by
  unfold update at h
  split at h
  · cases h
  · cases h; exact ⟨rfl, rfl⟩

theorem update_ok (t : Table S) (hc : ∀ r ∈ t.rows, p r = true → S.broken (f r) = none) :
    ∃ u, t.update p f hk hi = .ok ((t.rows.filter p).map f, u) ∧
      u.rows = t.rows.map fun r => if p r then f r else r := by
  unfold update
  split
  next c h =>
    obtain ⟨s, hs, hsc⟩ := List.exists_of_findSome?_eq_some h
    obtain ⟨r, hr, rfl⟩ := List.mem_map.mp hs
    rw [hc r (List.mem_filter.mp hr).1 (List.mem_filter.mp hr).2] at hsc
    cases hsc
  next h => exact ⟨_, rfl, rfl⟩

theorem update_get [DecidableEq κ] {t u : Table S} {rs : List ρ}
    (h : t.update p f hk hi = .ok (rs, u)) (k : κ) :
    u.get k = (t.get k).map fun r => if p r then f r else r := by
  have e : ∀ r, S.key (if p r then f r else r) = S.key r := by
    intro r; split
    · exact hk r
    · rfl
  simp only [get, (update_eq_ok h).2, List.find?_map, Function.comp_def, e]

end

/-! ## What a table becomes -/

/-- Every row of `t` is still in `u`, under its key and related by `R`. -/
def Follows (R : ρ → ρ → Prop) (t u : Table S) : Prop :=
  ∀ r ∈ t.rows, ∃ s ∈ u.rows, S.key s = S.key r ∧ R r s

section
variable {R : ρ → ρ → Prop}

theorem Follows.refl (hR : ∀ r, R r r) (t : Table S) : t.Follows R t := fun r hr => ⟨r, hr, rfl, hR r⟩

theorem Follows.trans {t u v : Table S} (htu : t.Follows R u) (huv : u.Follows R v)
    (hR : ∀ r s q, R r s → R s q → R r q) : t.Follows R v := by
  intro r hr
  obtain ⟨s, hs, hk, hrs⟩ := htu r hr
  obtain ⟨q, hq, hk', hsq⟩ := huv s hs
  exact ⟨q, hq, hk'.trans hk, hR _ _ _ hrs hsq⟩

theorem Follows.get [DecidableEq κ] {t u : Table S} (h : t.Follows R u) {k : κ} {r : ρ}
    (hr : t.get k = some r) :
    ∃ s, u.get k = some s ∧ R r s := by
  obtain ⟨hm, rfl⟩ := get_eq_some.mp hr
  obtain ⟨s, hs, hk, hrs⟩ := h r hm
  exact ⟨s, get_eq_some.mpr ⟨hs, hk⟩, hrs⟩

theorem insert_follows [DecidableEq κ] [DecidableEq ι] (hR : ∀ r, R r r) {t u : Table S} {r : ρ}
    (h : t.insert r = .ok u) : t.Follows R u := by
  intro s hs
  rw [insert_eq_ok] at h
  exact ⟨s, h.2 ▸ List.mem_append_left _ hs, rfl, hR s⟩

theorem update_follows {p : ρ → Bool} {f : ρ → ρ} {hk : ∀ r, S.key (f r) = S.key r}
    {hi : ∀ r, S.idx (f r) = S.idx r} (hR : ∀ r, R r r) (hf : ∀ r, p r = true → R r (f r)) {t u : Table S}
    {rs : List ρ} (h : t.update p f hk hi = .ok (rs, u)) : t.Follows R u := by
  intro r hr
  obtain ⟨-, hu⟩ := update_eq_ok h
  refine ⟨if p r then f r else r, hu ▸ List.mem_map.mpr ⟨r, hr, rfl⟩, ?_, ?_⟩
  · split
    · exact hk r
    · rfl
  · split
    next hp => exact hf r hp
    next => exact hR r

end

def Departs (done : ρ → Prop) (t u : Table S) [DecidableEq κ] : Prop :=
  ∃ r ∈ u.rows, ∀ s, t.get (S.key r) = some s → ¬done s ∧ done r

section
variable [DecidableEq κ] {done : ρ → Prop} {t u : Table S}

theorem Departs.ne (h : t.Departs done u) : u ≠ t := by
  rintro rfl
  obtain ⟨r, hr, hs⟩ := h
  exact absurd (hs r (get_key hr)).2 (hs r (get_key hr)).1

theorem Departs.mono {R : ρ → ρ → Prop} (hR : ∀ r s, R r s → done r → done s)
    {t₀ u₁ : Table S} (h₀ : t₀.Follows R t)
    (h : t.Departs done u) (h₁ : u.Follows R u₁) : t₀.Departs done u₁ := by
  obtain ⟨r, hr, hs⟩ := h
  obtain ⟨q, hq, hk, hrq⟩ := h₁ r hr
  refine ⟨q, hq, fun s₀ hs₀ => ?_⟩
  rw [hk] at hs₀
  obtain ⟨s, hs', hss⟩ := h₀.get hs₀
  obtain ⟨hns, hdr⟩ := hs s hs'
  exact ⟨fun h => hns (hR _ _ hss h), hR _ _ hrq hdr⟩

theorem insert_departs [DecidableEq ι] {r : ρ} (h : t.insert r = .ok u) : t.Departs done u := by
  obtain ⟨hnone, hself⟩ := insert_get_self h
  exact ⟨r, (get_eq_some.mp hself).1, fun s hs => nomatch hnone.symm.trans hs⟩

theorem update_departs {p : ρ → Bool} {f : ρ → ρ} {hk : ∀ r, S.key (f r) = S.key r}
    {hi : ∀ r, S.idx (f r) = S.idx r}
    {rs : List ρ} (h : t.update p f hk hi = .ok (rs, u)) {r : ρ} (hr : r ∈ t.rows) (hp : p r = true)
    (hn : ¬done r) (hd : done (f r)) : t.Departs done u := by
  refine ⟨f r, (update_eq_ok h).2 ▸ List.mem_map.mpr ⟨r, hr, by rw [if_pos hp]⟩, fun s hs => ?_⟩
  rw [hk, get_key hr] at hs
  cases hs
  exact ⟨hn, hd⟩

end

end Table

/-! ## Row order -/

/-- The order a query without `ORDER BY` reads its rows in, the `n`-th of all
possible ones. -/
def reorder {α : Type} (n : Nat) : List α → List α
  | [] => []
  | x :: xs => (reorder (n / (xs.length + 1)) xs).insertIdx (n % (xs.length + 1)) x

theorem reorder_perm {α : Type} (n : Nat) (xs : List α) : (reorder n xs).Perm xs := by
  induction xs generalizing n with
  | nil => exact List.Perm.refl _
  | cons x xs ih =>
    have hlen : (reorder (n / (xs.length + 1)) xs).length = xs.length := (ih _).length_eq
    refine (List.perm_insertIdx x _ ?_).trans ((ih _).cons x)
    rw [hlen]
    exact Nat.le_of_lt_succ (Nat.mod_lt _ (Nat.succ_pos _))

@[simp] theorem mem_reorder {α : Type} {n : Nat} {xs : List α} {x : α} : x ∈ reorder n xs ↔ x ∈ xs :=
  (reorder_perm n xs).mem_iff

theorem exists_reorder_head {α : Type} {xs : List α} {x : α} (h : x ∈ xs) :
    ∃ n, (reorder n xs).head? = some x := by
  induction xs with
  | nil => cases h
  | cons y ys ih =>
    rcases List.mem_cons.mp h with rfl | h
    · exact ⟨0, by simp [reorder]⟩
    · obtain ⟨n, hn⟩ := ih h
      have hlen : 0 < ys.length := List.length_pos_of_mem h
      refine ⟨n * (ys.length + 1) + 1, ?_⟩
      have hdiv : (n * (ys.length + 1) + 1) / (ys.length + 1) = n := by
        rw [Nat.mul_comm, Nat.mul_add_div (by omega), Nat.div_eq_of_lt (by omega), Nat.add_zero]
      have hmod : (n * (ys.length + 1) + 1) % (ys.length + 1) = 1 := by
        rw [Nat.mul_comm, Nat.mul_add_mod, Nat.mod_eq_of_lt (by omega)]
      rw [reorder, hdiv, hmod]
      obtain ⟨zs, hzs⟩ := List.head?_eq_some_iff.mp hn
      rw [hzs]
      rfl

end Tables
