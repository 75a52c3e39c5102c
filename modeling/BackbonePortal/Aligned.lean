import BackbonePortal.Table
import Mathlib.Data.List.Forall2

/-!
# Two tables side by side

Tables whose rows correspond one to one, and the statements that keep them so.
-/

namespace Tables

variable {ρ κ ι : Type} {S : Schema ρ κ ι} {R : ρ → ρ → Prop}

namespace Table

def Aligned (R : ρ → ρ → Prop) (t u : Table S) : Prop := List.Forall₂ R t.rows u.rows

theorem Aligned.refl (hR : ∀ r, R r r) (t : Table S) : t.Aligned R t := List.forall₂_same.mpr fun r _ => hR r

theorem Aligned.mono {Q : ρ → ρ → Prop} (h : ∀ r s, R r s → Q r s) {t u : Table S} (htu : t.Aligned R u) :
    t.Aligned Q u := List.Forall₂.imp h htu

theorem map_aligned {α : Type} {f : ρ → α} (hf : ∀ r s, R r s → f r = f s) {rs ss : List ρ}
    (h : List.Forall₂ R rs ss) : rs.map f = ss.map f := by
  induction h with
  | nil => rfl
  | cons hr _ ih => rw [List.map_cons, List.map_cons, hf _ _ hr, ih]

theorem filterMap_aligned {α : Type} {f : ρ → Option α} (hf : ∀ r s, R r s → f r = f s) {rs ss : List ρ}
    (h : List.Forall₂ R rs ss) : rs.filterMap f = ss.filterMap f := by
  induction h with
  | nil => rfl
  | cons hr _ ih => rw [List.filterMap_cons, List.filterMap_cons, hf _ _ hr, ih]

theorem forall₂_map {Q : ρ → ρ → Prop} {f g : ρ → ρ} {rs ss : List ρ}
    (hfg : ∀ r ∈ rs, ∀ s ∈ ss, R r s → Q (f r) (g s)) (h : List.Forall₂ R rs ss) :
    List.Forall₂ Q (rs.map f) (ss.map g) := by
  induction h with
  | nil => exact .nil
  | cons hr _ ih =>
    refine .cons (hfg _ List.mem_cons_self _ List.mem_cons_self hr) (ih fun r hr s hs => ?_)
    exact hfg r (List.mem_cons_of_mem _ hr) s (List.mem_cons_of_mem _ hs)

section
variable [DecidableEq κ]

theorem Aligned.get (hkey : ∀ r s, R r s → S.key r = S.key s) {t u : Table S} (h : t.Aligned R u) (k : κ) :
    (t.get k = none ∧ u.get k = none) ∨ ∃ r s, t.get k = some r ∧ u.get k = some s ∧ R r s := by
  unfold Aligned at h
  unfold Table.get
  generalize t.rows = rs at h ⊢
  generalize u.rows = ss at h ⊢
  induction h with
  | nil => exact .inl ⟨rfl, rfl⟩
  | @cons r s rs ss hr _ ih =>
    by_cases hk : S.key r = k
    · have hs : S.key s = k := (hkey _ _ hr).symm.trans hk
      simp only [List.find?_cons, decide_eq_true hk, decide_eq_true hs]
      exact .inr ⟨r, s, rfl, rfl, hr⟩
    · have hs : S.key s ≠ k := fun hs => hk ((hkey _ _ hr).trans hs)
      simp only [List.find?_cons, decide_eq_false hk, decide_eq_false hs]
      exact ih

variable [DecidableEq ι]

theorem Aligned.insert (hkey : ∀ r s, R r s → S.key r = S.key s) (hidx : ∀ r s, R r s → S.idx r = S.idx s)
    {t u : Table S} (h : t.Aligned R u) {r : ρ} (hr : R r r) :
    (∃ c, t.insert r = .error c ∧ u.insert r = .error c) ∨
      ∃ t' u', t.insert r = .ok t' ∧ u.insert r = .ok u' ∧ t'.Aligned R u' := by
  have hconflict : t.conflict r = u.conflict r := by
    unfold conflict
    rw [map_aligned hkey h, filterMap_aligned hidx h]
  have hok : ∀ {v : Table S}, v.conflict r = none → ∃ v', v.insert r = .ok v' ∧ v'.rows = v.rows ++ [r] := by
    intro v hv
    cases hi : v.insert r with
    | error c =>
      rw [insert_eq_error.mp hi] at hv
      cases hv
    | ok v' => exact ⟨v', rfl, (insert_eq_ok.mp hi).2⟩
  cases hc : t.conflict r with
  | some c => exact .inl ⟨c, insert_conflict hc, insert_conflict (hconflict ▸ hc)⟩
  | none =>
    obtain ⟨t', ht, hrows⟩ := hok hc
    obtain ⟨u', hu, hrows'⟩ := hok (hconflict ▸ hc)
    refine .inr ⟨t', u', ht, hu, ?_⟩
    unfold Aligned
    rw [hrows, hrows']
    exact List.rel_append h (.cons hr .nil)

end

section
variable {Q : ρ → ρ → Prop} {p : ρ → Bool} {f : ρ → ρ} {hk : ∀ r, S.key (f r) = S.key r}
  {hi : ∀ r, S.idx (f r) = S.idx r} {t u t' u' : Table S} {rs ss : List ρ}

theorem Aligned.update (h : t.Aligned R u)
    (hpf : ∀ r ∈ t.rows, ∀ s ∈ u.rows, R r s → Q (if p r then f r else r) (if p s then f s else s))
    (ht : t.update p f hk hi = .ok (rs, t')) (hu : u.update p f hk hi = .ok (ss, u')) : t'.Aligned Q u' := by
  unfold Aligned
  rw [(update_eq_ok ht).2, (update_eq_ok hu).2]
  exact forall₂_map hpf h

theorem Aligned.update_left (h : t.Aligned R u)
    (hpf : ∀ r ∈ t.rows, ∀ s ∈ u.rows, R r s → Q (if p r then f r else r) s)
    (ht : t.update p f hk hi = .ok (rs, t')) : t'.Aligned Q u := by
  unfold Aligned
  rw [(update_eq_ok ht).2, ← List.map_id u.rows]
  exact forall₂_map hpf h

theorem update_alike (hk : ∀ r, S.key (f r) = S.key r) (hi : ∀ r, S.idx (f r) = S.idx r)
    (h : t.rows.filter p = u.rows.filter p) :
    (∃ c, t.update p f hk hi = .error c ∧ u.update p f hk hi = .error c) ∨
    ∃ rs t' u', t.update p f hk hi = .ok (rs, t') ∧ u.update p f hk hi = .ok (rs, u') := by
  have hsome : ∀ {v : Table S} {c}, ((v.rows.filter p).map f).findSome? S.broken = some c →
      v.update p f hk hi = .error c := by
    intro v c hc
    unfold Table.update
    split
    next c' hc' => rw [hc] at hc'; cases hc'; rfl
    next hn => rw [hc] at hn; cases hn
  have hnone : ∀ {v : Table S}, ((v.rows.filter p).map f).findSome? S.broken = none →
      ∃ v', v.update p f hk hi = .ok ((v.rows.filter p).map f, v') := by
    intro v hn
    obtain ⟨v', hv, -⟩ : ∃ v', v.update p f hk hi = .ok ((v.rows.filter p).map f, v') ∧ _ :=
      Table.update_ok v fun r hr hp =>
        List.findSome?_eq_none_iff.mp hn _ (List.mem_map.mpr ⟨r, List.mem_filter.mpr ⟨hr, hp⟩, rfl⟩)
    exact ⟨v', hv⟩
  cases hb : ((t.rows.filter p).map f).findSome? S.broken with
  | some c => exact .inl ⟨c, hsome hb, hsome (h ▸ hb)⟩
  | none =>
    obtain ⟨t', ht⟩ := hnone hb
    obtain ⟨u', hu⟩ := hnone (v := u) (h ▸ hb)
    exact .inr ⟨_, t', u', ht, h ▸ hu⟩

theorem update_nothing (hp : ∀ r ∈ t.rows, p r = false) (ht : t.update p f hk hi = .ok (rs, t')) :
    rs = [] ∧ t' = t := by
  obtain ⟨hrs, hrows⟩ := update_eq_ok ht
  constructor
  · rw [hrs, List.filter_eq_nil_iff.mpr fun r hr => by simp [hp r hr]]
    rfl
  · refine Table.ext (hrows.trans ?_)
    conv => rhs; rw [← List.map_id t.rows]
    exact List.map_congr_left fun r hr => if_neg (by simp [hp r hr])

end

end Table

end Tables
