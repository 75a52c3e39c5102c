import BackbonePortal.Alone

/-!
# The detail patch

The UPDATE the self-service verb assembles from a patch, and the row it leaves.
-/

namespace BackbonePortal

open Proc Tables

/-! ## Columns -/

def DetailColumn.all : List DetailColumn :=
  [.displayName, .phone, .street, .street2, .city, .stateId, .countryId, .zip, .vat, .companyName]

theorem DetailColumn.mem_all (c : DetailColumn) : c ∈ DetailColumn.all := by
  cases c <;> decide

theorem DetailColumn.all_nodup : DetailColumn.all.Nodup := by decide

def Details.get (d : Details) : DetailColumn → Option String
  | .displayName => d.displayName
  | .phone => d.phone
  | .street => d.street
  | .street2 => d.street2
  | .city => d.city
  | .stateId => d.stateId
  | .countryId => d.countryId
  | .zip => d.zip
  | .vat => d.vat
  | .companyName => d.companyName

def PortalDetailPatch.arm (p : PortalDetailPatch) : DetailColumn → Option String
  | .displayName => p.displayName
  | .phone => p.phone
  | .street => p.street
  | .street2 => p.street2
  | .city => p.city
  | .stateId => p.stateId
  | .countryId => p.countryId
  | .zip => p.zip
  | .vat => p.vat
  | .companyName => p.companyName

theorem Details.get_set (d : Details) (c : DetailColumn) (v : String) (k : DetailColumn) :
    (d.set c v).get k = if k = c then some v else d.get k := by
  cases c <;> cases k <;> rfl

theorem PortalDetailPatch.arms_eq (p : PortalDetailPatch) :
    p.arms = DetailColumn.all.map fun c => (c, p.arm c) := rfl

theorem PortalDetailPatch.sets_eq (p : PortalDetailPatch) :
    p.sets = DetailColumn.all.filterMap fun c => (p.arm c).map fun v => (c, v) := by
  unfold sets
  rw [arms_eq, List.filterMap_map]
  rfl

theorem PortalDetailPatch.mem_sets {p : PortalDetailPatch} {c : DetailColumn} {v : String} :
    (c, v) ∈ p.sets ↔ p.arm c = some v := by
  rw [sets_eq, List.mem_filterMap]
  constructor
  · intro h
    obtain ⟨k, -, hk⟩ := h
    obtain ⟨x, hx, he⟩ := Option.map_eq_some_iff.mp hk
    cases he
    exact hx
  · intro h
    exact ⟨c, c.mem_all, by rw [h]; rfl⟩

theorem PortalDetailPatch.sets_nodup (p : PortalDetailPatch) : (p.sets.map Prod.fst).Nodup := by
  rw [sets_eq, List.map_filterMap]
  have hsub : (DetailColumn.all.filterMap fun c => ((p.arm c).map fun v => (c, v)).map Prod.fst).Sublist
      DetailColumn.all := by
    induction DetailColumn.all with
    | nil => exact List.Sublist.refl _
    | cons c cs ih =>
      rw [List.filterMap_cons]
      cases h : p.arm c with
      | none => exact ih.cons c
      | some v => exact ih.cons_cons c
  exact hsub.nodup DetailColumn.all_nodup

theorem PortalDetailPatch.sets_ne_nil {p : PortalDetailPatch} (h : p.isEmpty = false) : p.sets ≠ [] := by
  intro hnil
  unfold isEmpty at h
  rw [List.all_eq_false] at h
  obtain ⟨a, ha, hset⟩ := h
  obtain ⟨v, hv⟩ := Option.ne_none_iff_exists'.mp (by simpa using hset)
  have hmem : (a.1, v) ∈ p.sets := List.mem_filterMap.mpr ⟨a, ha, by rw [hv]; rfl⟩
  rw [hnil] at hmem
  cases hmem

theorem Details.get_sets (a : DetailColumn → Option String) (cs : List DetailColumn)
    (d : Details) (k : DetailColumn) :
    ((cs.filterMap fun c => (a c).map fun v => (c, v)).foldl (fun d s => d.set s.1 s.2) d).get k =
      if k ∈ cs then (a k).or (d.get k) else d.get k := by
  induction cs generalizing d with
  | nil => rfl
  | cons c cs ih =>
    cases h : a c with
    | none =>
      rw [List.filterMap_cons, h]
      simp only [Option.map_none, ih, List.mem_cons]
      by_cases hk : k = c
      · subst hk
        simp [h]
      · simp [hk]
    | some v =>
      rw [List.filterMap_cons, h]
      simp only [Option.map_some, List.foldl_cons, ih, List.mem_cons, Details.get_set]
      by_cases hk : k = c
      · subst hk
        simp [h]
      · simp [hk]

theorem PortalUser.amend_get (p : PortalDetailPatch) (by_ : String) (now : Instant)
    (u : PortalUser) (c : DetailColumn) :
    (u.amend p.sets by_ now).details.get c = (p.arm c).or (u.details.get c) := by
  unfold PortalUser.amend
  rw [p.sets_eq, Details.get_sets, if_pos c.mem_all]

/-! ## The statement -/

inductive Bind where
  | text (s : String)
  | uuid (u : Uuid)
deriving DecidableEq

structure QueryBuilder where
  sql : String
  binds : List Bind

namespace QueryBuilder

def new (init : String) : QueryBuilder := ⟨init, []⟩

def push (b : QueryBuilder) (s : String) : QueryBuilder := { b with sql := b.sql ++ s }

def pushBind (b : QueryBuilder) (v : Bind) : QueryBuilder where
  sql := b.sql ++ ("$" ++ toString (b.binds.length + 1))
  binds := b.binds ++ [v]

end QueryBuilder

/-- `set_arm!`, on the builder and the flag `first`. -/
def setArm (s : QueryBuilder × Bool) (col : String) : Option String → QueryBuilder × Bool
  | none => s
  | some v =>
    let builder := if s.2 then s.1 else s.1.push ", "
    (((builder.push col).push " = ").pushBind (.text v), false)

def setArms (patch : PortalDetailPatch) : QueryBuilder × Bool :=
  patch.arms.foldl (fun s a => setArm s a.1.name a.2) (.new "UPDATE portal.portal_users SET ", true)

/-- The identity stamp, which opens with a comma, and the principal's own row. -/
def stampAndScope (principal : Uuid) (builder : QueryBuilder) : QueryBuilder :=
  let builder := builder.push ", metadata = jsonb_set(metadata, '{updated_by}', to_jsonb("
  let builder := (builder.pushBind (.text principal.display)).push "::text)) WHERE id = "
  (builder.pushBind (.uuid principal)).push " AND status = 'active' AND (metadata->>'deleted_at') IS NULL"

def updateQuery (principal : Uuid) (patch : PortalDetailPatch) : QueryBuilder :=
  stampAndScope principal (setArms patch).1

/-- The syntax of such a statement: the columns and the key, each with its placeholder. -/
structure UpdateSyntax where
  sets : List (DetailColumn × Nat)
  stamp : Nat
  key : Nat

namespace UpdateSyntax

def placeholder (n : Nat) : String := "$" ++ toString n

def setClause (s : DetailColumn × Nat) : String := s.1.name ++ " = " ++ placeholder s.2

def text (q : UpdateSyntax) : String :=
  "UPDATE portal.portal_users SET " ++ ", ".intercalate (q.sets.map setClause) ++
    ", metadata = jsonb_set(metadata, '{updated_by}', to_jsonb(" ++ placeholder q.stamp ++
    "::text)) WHERE id = " ++ placeholder q.key ++
      " AND status = 'active' AND (metadata->>'deleted_at') IS NULL"

/-- What Postgres asks of it: a column to set, none twice, and a value for every placeholder. -/
structure WellFormed (q : UpdateSyntax) (binds : List Bind) : Prop where
  assigns : q.sets ≠ []
  once : (q.sets.map Prod.fst).Nodup
  numbered : q.sets.map Prod.snd ++ [q.stamp, q.key] = List.range' 1 binds.length

def Holds (binds : List Bind) (n : Nat) (v : Bind) : Prop := 0 < n ∧ binds[n - 1]? = some v

end UpdateSyntax

def numbered (sets : List (DetailColumn × String)) : List (DetailColumn × Nat) :=
  (sets.zipIdx 1).map fun s => (s.1.1, s.2)

theorem numbered_snoc (sets : List (DetailColumn × String)) (c : DetailColumn) (v : String) :
    numbered (sets ++ [(c, v)]) = numbered sets ++ [(c, sets.length + 1)] := by
  unfold numbered
  rw [List.zipIdx_append, List.map_append, Nat.add_comm 1]
  rfl

theorem numbered_fst (sets : List (DetailColumn × String)) :
    (numbered sets).map Prod.fst = sets.map Prod.fst := by
  unfold numbered
  conv => rhs; rw [← List.zipIdx_map_fst 1 sets]
  rw [List.map_map, List.map_map]
  rfl

theorem numbered_snd (sets : List (DetailColumn × String)) :
    (numbered sets).map Prod.snd = List.range' 1 sets.length := by
  unfold numbered
  rw [List.map_map, ← List.zipIdx_map_snd]
  rfl

/-- The builder after some arms: their clauses in order, their values bound. -/
structure Assembled (s : QueryBuilder × Bool) (sets : List (DetailColumn × String)) : Prop where
  sql : s.1.sql = "UPDATE portal.portal_users SET " ++
    ", ".intercalate ((numbered sets).map UpdateSyntax.setClause)
  binds : s.1.binds = sets.map fun a => .text a.2
  first : s.2 = sets.isEmpty

theorem setArm_assembled {s : QueryBuilder × Bool} {sets : List (DetailColumn × String)} (h : Assembled s sets)
    (c : DetailColumn) (o : Option String) :
    Assembled (setArm s c.name o) (sets ++ (o.map fun v => (c, v)).toList) := by
  cases o with
  | none => simpa [setArm] using h
  | some v =>
    have hlen : s.1.binds.length = sets.length := by rw [h.binds, List.length_map]
    refine ⟨?_, ?_, ?_⟩
    · simp only [Option.map_some, Option.toList_some, numbered_snoc, List.map_append,
        List.map_cons, List.map_nil]
      cases sets with
      | nil =>
        simp only [setArm, h.first, List.isEmpty_nil, if_true, QueryBuilder.push,
          QueryBuilder.pushBind, hlen, h.sql]
        simp [numbered, UpdateSyntax.setClause, UpdateSyntax.placeholder, String.append_assoc]
      | cons a as =>
        have hne : (numbered (a :: as)).map UpdateSyntax.setClause ≠ [] := List.cons_ne_nil _ _
        rw [String.intercalate_append_of_ne_nil hne (List.cons_ne_nil _ _), String.intercalate_singleton]
        simp only [setArm, h.first, List.isEmpty_cons, Bool.false_eq_true, if_false, QueryBuilder.push,
          QueryBuilder.pushBind, hlen, h.sql, UpdateSyntax.setClause, UpdateSyntax.placeholder,
          String.append_assoc]
    · simp only [setArm, QueryBuilder.push, QueryBuilder.pushBind]
      split <;> simp [h.binds]
    · simp [setArm]

theorem arms_assembled (arms : List (DetailColumn × Option String)) {s : QueryBuilder × Bool}
    {sets : List (DetailColumn × String)} (h : Assembled s sets) :
    Assembled (arms.foldl (fun s a => setArm s a.1.name a.2) s)
      (sets ++ arms.filterMap fun a => a.2.map fun v => (a.1, v)) := by
  induction arms generalizing s sets with
  | nil => simpa using h
  | cons a as ih =>
    have := ih (setArm_assembled h a.1 a.2)
    cases ha : a.2 with
    | none => simpa [ha] using this
    | some v => simpa [ha, List.append_assoc] using this

def updateSyntax (patch : PortalDetailPatch) : UpdateSyntax where
  sets := numbered patch.sets
  stamp := patch.sets.length + 1
  key := patch.sets.length + 1 + 1

theorem setArms_assembled (patch : PortalDetailPatch) : Assembled (setArms patch) patch.sets := by
  have hnew : Assembled (.new "UPDATE portal.portal_users SET ", true) [] := ⟨by decide, rfl, rfl⟩
  exact arms_assembled patch.arms hnew

theorem updateQuery_binds (principal : Uuid) (patch : PortalDetailPatch) :
    (updateQuery principal patch).binds =
      (patch.sets.map fun a => Bind.text a.2) ++ [.text principal.display, .uuid principal] := by
  simp [updateQuery, stampAndScope, QueryBuilder.push, QueryBuilder.pushBind, (setArms_assembled patch).binds]

theorem updateQuery_sql (principal : Uuid) (patch : PortalDetailPatch) :
    (updateQuery principal patch).sql = (updateSyntax patch).text := by
  have h := setArms_assembled patch
  have hlen : (setArms patch).1.binds.length = patch.sets.length := by rw [h.binds, List.length_map]
  unfold updateQuery stampAndScope UpdateSyntax.text
  generalize setArms patch = s at h hlen ⊢
  simp only [QueryBuilder.push, QueryBuilder.pushBind, List.length_append, List.length_singleton]
  simp only [h.sql, hlen]
  simp only [updateSyntax, UpdateSyntax.placeholder]

theorem updateSyntax_wellFormed {principal : Uuid} {patch : PortalDetailPatch} (h : patch.isEmpty = false) :
    (updateSyntax patch).WellFormed (updateQuery principal patch).binds := by
  refine ⟨?_, ?_, ?_⟩
  · intro hnil
    have hlen := congrArg List.length hnil
    rw [updateSyntax, ← List.length_map (f := Prod.fst), numbered_fst, List.length_map] at hlen
    exact PortalDetailPatch.sets_ne_nil h (List.length_eq_zero_iff.mp hlen)
  · exact (numbered_fst patch.sets).symm ▸ patch.sets_nodup
  · rw [updateQuery_binds, List.length_append, List.length_map]
    simp only [updateSyntax, numbered_snd]
    rw [List.length_cons, List.length_singleton, ← List.range'_append_1]
    simp [List.range'_succ, Nat.add_comm]

theorem mem_numbered {sets : List (DetailColumn × String)} {c : DetailColumn} {k : Nat} :
    (c, k) ∈ numbered sets ↔ ∃ v, 0 < k ∧ sets[k - 1]? = some (c, v) := by
  unfold numbered
  rw [List.mem_map]
  constructor
  · intro h
    obtain ⟨⟨⟨c', v⟩, n⟩, hmem, he⟩ := h
    cases he
    exact ⟨v, List.mk_mem_zipIdx_iff_le_and_getElem?_sub.mp hmem⟩
  · intro h
    obtain ⟨v, hk⟩ := h
    exact ⟨((c, v), k), List.mk_mem_zipIdx_iff_le_and_getElem?_sub.mpr hk, rfl⟩

theorem updateQuery_attached (principal : Uuid) (patch : PortalDetailPatch) (c : DetailColumn) (v : String) :
    patch.arm c = some v ↔ ∃ k, (c, k) ∈ (updateSyntax patch).sets ∧
      UpdateSyntax.Holds (updateQuery principal patch).binds k (.text v) := by
  have hbind : ∀ (k : Nat) (a : DetailColumn × String), patch.sets[k]? = some a →
      (updateQuery principal patch).binds[k]? = some (.text a.2) := by
    intro k a ha
    have hlt := (List.getElem?_eq_some_iff.mp ha).1
    rw [updateQuery_binds, List.getElem?_append_left (by rw [List.length_map]; exact hlt),
      List.getElem?_map, ha]
    rfl
  rw [← PortalDetailPatch.mem_sets, List.mem_iff_getElem?]
  constructor
  · intro h
    obtain ⟨n, hn⟩ := h
    exact ⟨n + 1, mem_numbered.mpr ⟨v, Nat.succ_pos n, hn⟩, Nat.succ_pos n, hbind n _ hn⟩
  · intro h
    obtain ⟨k, hk, -, hv⟩ := h
    obtain ⟨v', -, hget⟩ := mem_numbered.mp hk
    have hsame := (hbind _ _ hget).symm.trans hv
    cases hsame
    exact ⟨k - 1, hget⟩

/-! ## The row -/

def PortalUser.admitted (u : PortalUser) : Bool := u.status = .active && u.live

def PortalUser.account (u : PortalUser) : PortalAccountView :=
  ⟨u.id, u.email, u.status.text, u.details, u.lastLoginAt, u.metadata.updatedAt⟩

theorem PortalUser.amend_admitted (sets : List (DetailColumn × String)) (by_ : String) (now : Instant)
    (u : PortalUser) : (u.amend sets by_ now).admitted = u.admitted := rfl

theorem run_view (user : Uuid) (i : Nat → Env) (w : World) :
    (view user).run portalMachine i w =
      (match (i 0).fault with
        | some text => .error (.err (.db (.fault text)))
        | none =>
          match (w.db.users.get user).filter (·.admitted) with
          | some u => .ok u.account
          | none => .error (.err (.notFound ("principal " ++ user.display))),
        { w with clock := (i 0).now }) := by
  unfold view
  cases hf : (i 0).fault with
  | some text =>
    rw [Prog.bind_eq, run_query_fault i w hf]
  | none =>
    rw [Prog.bind_eq, run_query_ok i w (Stmt.answer_of_ok (q := .viewRow user) hf rfl)]
    have hgate : (w.db.users.get user).filter (fun u => u.status = .active && u.live) =
        (w.db.users.get user).filter (·.admitted) := rfl
    rw [hgate]
    cases (w.db.users.get user).filter (·.admitted) with
    | none => rfl
    | some u => rfl

theorem exec_updateDetails {id : Uuid} {sets : List (DetailColumn × String)} {n : Nat}
    {db db' : Db} {now : Instant}
    {scan : Nat} (h : (Stmt.updateDetails id sets).exec now scan db = .ok (n, db')) :
    (n = 0 ∧ (db.users.get id).filter (·.admitted) = none ∧ db' = db) ∨
    ∃ u users, n = 1 ∧ db.users.get id = some u ∧ u.admitted = true ∧ db' = { db with users } ∧
      users.rows = db.users.rows.map fun r => if r.id = id then u.amend sets id.display now else r := by
  obtain ⟨users, hu, hn, hdb⟩ := Db.updateUsers_ok h
  have hrows := (Table.update_eq_ok hu).2
  have hmatch : (db.users.rows.filter fun r => r.id = id && r.status = .active && r.live) =
      ((db.users.get id).filter (·.admitted)).toList := by
    simp only [Bool.and_assoc]
    exact db.users_with_id id _
  rw [hmatch, List.length_map] at hn
  cases hget : (db.users.get id).filter (·.admitted) with
  | none =>
    refine .inl ⟨by rw [hn, hget]; rfl, rfl, ?_⟩
    have hsame : users = db.users := by
      refine Table.ext (hrows.trans ?_)
      conv => rhs; rw [← List.map_id db.users.rows]
      refine List.map_congr_left fun r hr => if_neg fun hp => ?_
      have hmem : r ∈ db.users.rows.filter fun r => r.id = id && r.status = .active && r.live :=
        List.mem_filter.mpr ⟨hr, hp⟩
      rw [hmatch, hget] at hmem
      cases hmem
    rw [hdb, hsame]
  | some u =>
    obtain ⟨hrow, hadm⟩ := Option.filter_eq_some_iff.mp hget
    refine .inr
      ⟨u, users, by rw [hn, hget]; rfl, hrow, hadm, hdb, hrows.trans (List.map_congr_left fun r hr => ?_)⟩
    by_cases hid : r.id = id
    · have hru : some r = some u := (Table.get_key hr).symm.trans ((congrArg _ hid).trans hrow)
      cases hru
      have hp : (u.id = id && u.status = .active && u.live) = true := by
        rw [Bool.and_assoc]
        exact Bool.and_eq_true_iff.mpr ⟨decide_eq_true hid, hadm⟩
      rw [if_pos hid, if_pos hp]
    · rw [if_neg hid, if_neg]
      simp [hid]

theorem updateDetails_unmatched {id : Uuid} {sets : List (DetailColumn × String)}
    {db : Db} {now : Instant} {scan : Nat}
    (h : (db.users.get id).filter (·.admitted) = none) :
    (Stmt.updateDetails id sets).exec now scan db = .ok (0, db) := by
  have hmatch : (db.users.rows.filter fun r => r.id = id && r.status = .active && r.live) = [] := by
    simp only [Bool.and_assoc]
    rw [db.users_with_id]
    exact congrArg Option.toList h
  obtain ⟨users, hu⟩ : ∃ users, db.users.update (fun r => r.id = id && r.status = .active && r.live)
      (·.amend sets id.display now) (fun _ => rfl) (fun _ => rfl) =
        .ok ((db.users.rows.filter fun r => r.id = id && r.status = .active && r.live).map
          (·.amend sets id.display now), users) := by
    obtain ⟨users, hu, -⟩ := Table.update_ok db.users fun r hr hp => by
      have hmem := List.mem_filter.mpr ⟨hr, hp⟩
      rw [hmatch] at hmem
      cases hmem
    exact ⟨users, hu⟩
  have hexec : (Stmt.updateDetails id sets).exec now scan db = .ok (0, { db with users }) := by
    simp only [Stmt.exec, Db.updateUsers, Db.written, hu, hmatch, List.map_nil, List.length_nil]
  rcases exec_updateDetails hexec with ⟨-, -, hdb⟩ | ⟨_, _, hone, -⟩
  · rw [hexec, hdb]
  · cases hone

theorem updateMyDetails_alone (principal : PortalPrincipal) (patch : PortalDetailPatch)
    (i : Nat → Env) (w : World)
    (hview : (i 1).fault = none) :
    (∃ e, ((updateMyDetails principal patch).run portalMachine i w).1 = .error (.err e) ∧
      ((updateMyDetails principal patch).run portalMachine i w).2.db = w.db) ∨
    ∃ u users, patch.isEmpty = false ∧ patch.validate = .ok () ∧ w.db.users.get principal.userId = some u ∧
      u.admitted = true ∧
      users.rows = w.db.users.rows.map (fun r =>
        if r.id = principal.userId then u.amend patch.sets principal.userId.display (i 0).now.stored else r) ∧
      users.get principal.userId = some (u.amend patch.sets principal.userId.display (i 0).now.stored) ∧
      (updateMyDetails principal patch).run portalMachine i w =
        (.ok (u.amend patch.sets principal.userId.display (i 0).now.stored).account,
          { w with db := { w.db with users }, clock := (i 1).now }) := by
  unfold updateMyDetails
  cases hempty : patch.isEmpty with
  | true => exact .inl ⟨_, rfl, rfl⟩
  | false =>
    cases hvalid : patch.validate with
    | error e => exact .inl ⟨e, rfl, rfl⟩
    | ok =>
      simp only [Bool.false_eq_true, if_false, ofExcept_ok, Prog.bind_eq, Prog.bind_ret]
      rcases run_query i w (.updateDetails principal.userId patch.sets) _ with ⟨e, he, hrun⟩ | ⟨n, hn, hrun⟩
      · rw [hrun]
        exact .inl ⟨_, rfl, rfl⟩
      rw [hrun]
      rcases exec_updateDetails (Stmt.answer_ok hn).2 with ⟨rfl, -, hdb⟩ | ⟨u, users, rfl, hu, hadm, hdb, hrows⟩
      · rw [hdb]
        exact .inl ⟨_, rfl, rfl⟩
      · have hget : users.get principal.userId =
            some (u.amend patch.sets principal.userId.display (i 0).now.stored) := by
          obtain ⟨hmem, hid⟩ := Table.get_eq_some.mp hu
          exact Table.get_eq_some.mpr ⟨hrows ▸ List.mem_map.mpr ⟨u, hmem, if_pos hid⟩, hid⟩
        refine .inr ⟨u, users, trivial, trivial, hu, hadm, hrows, hget, ?_⟩
        rw [if_neg fun h => h rfl, run_view, hdb]
        simp only [from_apply, Nat.zero_add, hview, hget, Option.filter_some,
          PortalUser.amend_admitted, hadm, if_true]

/-- **The detail patch**, exactly: it is refused and nothing changes, or the row of
the principal holds the set arms, the old values and the stamp, and is what the
view shows; the statement it sends is well formed, each value with its column. -/
theorem detail_patch_exact (principal : PortalPrincipal) (patch : PortalDetailPatch) (i : Nat → Env) (w : World)
    (hview : (i 1).fault = none) :
    ((∃ e, ((updateMyDetails principal patch).run portalMachine i w).1 = .error (.err e) ∧
        ((updateMyDetails principal patch).run portalMachine i w).2.db = w.db) ∨
      ∃ u v users, w.db.users.get principal.userId = some u ∧ users.get principal.userId = some v ∧
        (∀ c, v.details.get c = (patch.arm c).or (u.details.get c)) ∧
        v.metadata.updatedBy = some principal.userId.display ∧
        v = { u with
          details := v.details
          metadata := { u.metadata with updatedAt := v.metadata.updatedAt, updatedBy := v.metadata.updatedBy } } ∧
        users.rows = w.db.users.rows.map (fun r => if r.id = principal.userId then v else r) ∧
        ((updateMyDetails principal patch).run portalMachine i w).2.db = { w.db with users } ∧
        ((updateMyDetails principal patch).run portalMachine i w).1 =
          .ok ⟨v.id, v.email, v.status.text, v.details, v.lastLoginAt, v.metadata.updatedAt⟩) ∧
    (patch.isEmpty = false → ∃ q : UpdateSyntax,
      (updateQuery principal.userId patch).sql = q.text ∧
      q.WellFormed (updateQuery principal.userId patch).binds ∧
      (∀ c v, patch.arm c = some v ↔
        ∃ k, (c, k) ∈ q.sets ∧ UpdateSyntax.Holds (updateQuery principal.userId patch).binds k (.text v)) ∧
      UpdateSyntax.Holds (updateQuery principal.userId patch).binds q.stamp (.text principal.userId.display) ∧
      UpdateSyntax.Holds (updateQuery principal.userId patch).binds q.key (.uuid principal.userId)) := by
  refine ⟨?_, fun h => ⟨updateSyntax patch, updateQuery_sql _ _, updateSyntax_wellFormed h,
    updateQuery_attached _ _, ?_, ?_⟩⟩
  · rcases updateMyDetails_alone principal patch i w hview with h | ⟨u, users, -, -, hu, -, hrows, hget, hrun⟩
    · exact .inl h
    · rw [hrun]
      exact .inr ⟨u, u.amend patch.sets principal.userId.display (i 0).now.stored, users, hu, hget,
        u.amend_get patch _ _, rfl, rfl, hrows, rfl, rfl⟩
  · exact ⟨Nat.succ_pos _, by simp [updateSyntax, updateQuery_binds]⟩
  · exact ⟨Nat.succ_pos _, by simp [updateSyntax, updateQuery_binds]⟩

namespace Probe

def holder : PortalPrincipal := ⟨uuid 2, email, none⟩

def move : PortalDetailPatch := { city := some "Bandung", zip := some "40111" }

end Probe

theorem detail_patch_exact_probe :
    ∃ u v users, Probe.enrolled.users.get (Probe.uuid 2) = some u ∧ users.get (Probe.uuid 2) = some v ∧
      v.details.city = some "Bandung" ∧ v.details.vat = u.details.vat ∧
      v.metadata.updatedBy = some (Probe.uuid 2).display ∧
      ((updateMyDetails Probe.holder Probe.move).run portalMachine (fun _ => Probe.env)
        (Probe.world Probe.enrolled)).2.db =
        { Probe.enrolled with users } := by
  rcases (detail_patch_exact Probe.holder Probe.move (fun _ => Probe.env)
    (Probe.world Probe.enrolled) rfl).1 with
    ⟨e, he, -⟩ | ⟨u, v, users, hu, hv, hcols, hby, -, -, hdb, -⟩
  · have hok : ((updateMyDetails Probe.holder Probe.move).run portalMachine (fun _ => Probe.env)
        (Probe.world Probe.enrolled)).1.isOk = true := by decide +kernel
    rw [he] at hok
    cases hok
  · exact ⟨u, v, users, hu, hv, hcols .city, hcols .vat, hby, hdb⟩

example :
    (updateQuery (Probe.uuid 2) Probe.move).sql = "UPDATE portal.portal_users SET city = $1, zip = $2, " ++
    "metadata = jsonb_set(metadata, '{updated_by}', to_jsonb($3::text)) WHERE id = $4 AND status = 'active' " ++
    "AND (metadata->>'deleted_at') IS NULL" := by decide +kernel

/-! ## Two validators -/

def DetailColumn.check (c : DetailColumn) : Option (PortalUser → Bool) :=
  userSchema.checks.lookup ("ck_portal_users_" ++ c.name ++ "_max_length__max_length")

def DetailColumn.Allows (c : DetailColumn) (v : String) : Prop :=
  ∃ check, c.check = some check ∧ ∀ u : PortalUser, check { u with details := u.details.set c v } = true

def PortalDetailPatch.Allowed (p : PortalDetailPatch) : Prop := ∀ c v, p.arm c = some v → c.Allows v

theorem DetailColumn.check_eq (c : DetailColumn) :
    c.check = some fun u => optionally (withinLength c.max) (u.details.get c) := by
  cases c <;> rfl

theorem DetailColumn.allows_iff {c : DetailColumn} {v : String} : c.Allows v ↔ v.length ≤ c.max := by
  have hset : ∀ u : PortalUser, (u.details.set c v).get c = some v := by
    intro u
    rw [Details.get_set, if_pos rfl]
  unfold Allows
  rw [c.check_eq]
  constructor
  · intro h
    obtain ⟨check, hc, hall⟩ := h
    cases hc
    have hu := hall { id := ⟨0⟩, email := "", status := .active }
    dsimp only at hu
    rw [Details.get_set, if_pos rfl] at hu
    exact of_decide_eq_true hu
  · intro h
    refine ⟨_, rfl, fun u => ?_⟩
    dsimp only
    rw [hset]
    exact decide_eq_true h

theorem length_le_byteLen (s : String) : s.length ≤ byteLen s := by
  unfold byteLen bytes
  rw [← String.length_toList]
  induction s.toList with
  | nil => exact Nat.le_refl 0
  | cons c cs ih =>
    have hpos : 1 ≤ (String.utf8EncodeChar c).length := by
      rw [String.length_utf8EncodeChar]
      exact c.utf8Size_pos
    rw [List.flatMap_cons, List.length_append, List.length_cons]
    omega

theorem PortalDetailPatch.validate_ok_iff {p : PortalDetailPatch} :
    p.validate = .ok () ↔ ∀ c v, p.arm c = some v → byteLen v ≤ c.max := by
  unfold validate
  constructor
  · intro h c v hv
    split at h
    · cases h
    next hnone =>
      have hmem : (c, some v) ∈ p.arms := by
        rw [arms_eq, ← hv]
        exact List.mem_map.mpr ⟨c, c.mem_all, rfl⟩
      have := List.find?_eq_none.mp hnone _ hmem
      simpa using this
  · intro h
    split
    next c o hsome =>
      have hmem := List.mem_of_find?_eq_some hsome
      rw [arms_eq] at hmem
      obtain ⟨k, -, hk⟩ := List.mem_map.mp hmem
      cases hk
      have hlong := List.find?_some hsome
      obtain ⟨v, hv, hlt⟩ := (Option.any_eq_true _ _).mp hlong
      exact absurd (of_decide_eq_true hlt) (Nat.not_lt.mpr (h c v hv))
    · rfl

theorem PortalDetailPatch.validate_error {p : PortalDetailPatch} {e : PortalError} (h : p.validate = .error e) :
    ∃ text, e = .invalidInput text := by
  unfold validate at h
  split at h
  · cases h
    exact ⟨_, rfl⟩
  · cases h

theorem PortalDetailPatch.validate_allowed {p : PortalDetailPatch} (h : p.validate = .ok ()) : p.Allowed := by
  intro c v hv
  exact DetailColumn.allows_iff.mpr (Nat.le_trans (length_le_byteLen v) (validate_ok_iff.mp h c v hv))

/-- **The two validators agree** on a patch exactly if an arm is too long in
characters, or none that fits in characters is too long in bytes. -/
theorem validators_agree_iff (p : PortalDetailPatch) :
    (p.validate = .ok () ↔ p.Allowed) ↔
      (∃ c v, p.arm c = some v ∧ c.max < v.length) ∨
        ∀ c v, p.arm c = some v → v.length ≤ c.max → byteLen v ≤ c.max := by
  constructor
  · intro h
    by_cases hlong : ∃ c v, p.arm c = some v ∧ c.max < v.length
    · exact .inl hlong
    · refine .inr fun c v hv _ => PortalDetailPatch.validate_ok_iff.mp (h.mpr fun c v hv => ?_) c v hv
      exact DetailColumn.allows_iff.mpr (Nat.not_lt.mp fun hlt => hlong ⟨c, v, hv, hlt⟩)
  · intro h
    refine ⟨PortalDetailPatch.validate_allowed, fun hall =>
      PortalDetailPatch.validate_ok_iff.mpr fun c v hv => ?_⟩
    have hfits : v.length ≤ c.max := DetailColumn.allows_iff.mp (hall c v hv)
    rcases h with ⟨k, x, hx, hlt⟩ | hgap
    · exact absurd (DetailColumn.allows_iff.mp (hall k x hx)) (Nat.not_le.mpr hlt)
    · exact hgap c v hv hfits

namespace Probe

def greek : PortalDetailPatch := { countryId := some "Ελλάδα" }

end Probe

/-- The migration allows the country, the validator refuses it. -/
theorem validators_disagree :
    Probe.greek.Allowed ∧
      Probe.greek.validate = .error (.invalidInput "country_id exceeds the maximum length of 8") := by
  refine ⟨fun c v hv => DetailColumn.allows_iff.mpr ?_, by rfl⟩
  cases c <;> cases hv
  decide

end BackbonePortal
