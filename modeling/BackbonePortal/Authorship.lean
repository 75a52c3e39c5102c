import BackbonePortal.Histories
import BackbonePortal.Mediation
import BackbonePortal.Patch

/-!
# The authors of the details

A column of the details ends a run with its first value, or with what an
accepted patch wrote there: the patch of a call that speaks for the principal,
checked before it was sent. Patches that cross lose none of each other's columns.
-/

namespace BackbonePortal

open Proc Tables

/-! ## The columns of all rows -/

def Db.detail (db : Db) (cell : Uuid × DetailColumn) : Option String :=
  (db.users.get cell.1).bind fun u => u.details.get cell.2

/-- What the SET list leaves in the column. -/
def assigned (sets : List (DetailColumn × String)) (c : DetailColumn) : Option String := sets.reverse.lookup c

/-- What an answered statement wrote in the cell. -/
def patched (ev : Event portalSig) (cell : Uuid × DetailColumn) : Option (Option String) :=
  match ev with
  | ⟨.sql (.updateDetails user sets), .ok 1⟩ => if cell.1 = user then (assigned sets cell.2).map some else none
  | _ => none

theorem Details.get_assigned (d : Details) (sets : List (DetailColumn × String)) (c : DetailColumn) :
    (sets.foldl (fun d s => d.set s.1 s.2) d).get c = (assigned sets c).or (d.get c) := by
  induction sets using List.reverseRecOn with
  | nil => rfl
  | append_singleton sets s ih =>
    unfold assigned at ih ⊢
    rw [List.foldl_append, List.reverse_append, List.reverse_singleton, List.singleton_append, List.lookup_cons]
    show ((sets.foldl (fun d s => d.set s.1 s.2) d).set s.1 s.2).get c = _
    rw [Details.get_set, ih]
    by_cases hc : c = s.1
    · simp [hc]
    · simp [hc, beq_false_of_ne hc]

theorem assigned_mem {sets : List (DetailColumn × String)} {c : DetailColumn} {v : String}
    (h : assigned sets c = some v) : (c, v) ∈ sets := by
  unfold assigned at h
  obtain ⟨l, k, hsets, hk⟩ := List.lookup_eq_some_iff.mp h
  rw [← List.mem_reverse, hsets]
  exact List.mem_append_right _ List.mem_cons_self

theorem assigned_none {sets : List (DetailColumn × String)} {c : DetailColumn} :
    assigned sets c = none ↔ c ∉ sets.map Prod.fst := by
  unfold assigned
  rw [List.lookup_eq_none_iff, List.mem_map]
  constructor
  · intro h hc
    obtain ⟨s, hs, he⟩ := hc
    exact absurd he.symm (bne_iff_ne.mp (h s (List.mem_reverse.mpr hs)))
  · intro h s hs
    exact bne_iff_ne.mpr fun he => h ⟨s, List.mem_reverse.mp hs, he.symm⟩

theorem patched_some {ev : Event portalSig} {user : Uuid} {c : DetailColumn} {o : Option String}
    (h : patched ev (user, c) = some o) :
    ∃ sets v, ev = ⟨.sql (.updateDetails user sets), .ok (1 : Nat)⟩ ∧ o = some v ∧ assigned sets c = some v := by
  unfold patched at h
  split at h
  next holder sets =>
    split at h
    next hk =>
      obtain rfl : user = holder := hk
      obtain ⟨v, hv, ho⟩ := Option.map_eq_some_iff.mp h
      exact ⟨sets, v, rfl, ho.symm, hv⟩
    next => cases h
  next => cases h

/-! ## What a statement does to them -/

section
variable {db db' : Db} {now : Instant} {scan : Nat}

theorem update_keeps_details {p : PortalUser → Bool} {f : PortalUser → PortalUser}
    {hk : ∀ u, userSchema.key (f u) = userSchema.key u} {hi : ∀ u, userSchema.idx (f u) = userSchema.idx u}
    {rs : List PortalUser} {users : Table userSchema} (hu : db.users.update p f hk hi = .ok (rs, users))
    (hf : ∀ u, (f u).details = u.details) : { db with users }.detail = db.detail := by
  funext cell
  show (users.get cell.1).bind _ = (db.users.get cell.1).bind _
  rw [Table.update_get hu]
  cases db.users.get cell.1 with
  | none => rfl
  | some u =>
    show (if p u then f u else u).details.get cell.2 = u.details.get cell.2
    split
    · rw [hf u]
    · rfl

/-- A row begins without details. -/
theorem insert_keeps_details {id : Uuid} {email : String} {users : Table userSchema}
    (h : db.users.insert (.fresh id email now) = .ok users) : { db with users }.detail = db.detail := by
  obtain ⟨hfree, hself⟩ := Table.insert_get_self h
  funext cell
  show (users.get cell.1).bind _ = (db.users.get cell.1).bind _
  by_cases hk : cell.1 = id
  · rw [hk, show users.get id = some (.fresh id email now) from hself,
      show db.users.get id = none from hfree]
    show Details.get {} cell.2 = none
    cases cell.2 <;> rfl
  · rw [Table.insert_get_other h fun e => hk e.symm]

theorem exec_detail {q : Stmt} {r : q.Res} (h : q.exec now scan db = .ok (r, db')) :
    db'.detail = overlay db.detail (patched ⟨.sql q, .ok r⟩) := by
  cases q with
  | touchLastLogin id =>
    obtain ⟨users, hu, -, rfl⟩ := Db.updateUsers_ok h
    exact update_keeps_details hu fun _ => rfl
  | stampSapiens sapiens email =>
    obtain ⟨users, hu, -, rfl⟩ := Db.updateUsers_ok h
    exact update_keeps_details hu fun _ => rfl
  | revokeUser id reason =>
    obtain ⟨users, hu, -, rfl⟩ := Db.updateUsers_ok h
    exact update_keeps_details hu fun _ => rfl
  | redeemInvite id user email =>
    rcases exec_redeemInvite h with ⟨-, rfl⟩ | ⟨settled, v, -, -, -, -, -, hi⟩
    · rfl
    · obtain ⟨users, hin, rfl⟩ := Db.insertUser_ok hi
      exact insert_keeps_details hin
  | insertSignup id email =>
    rcases exec_insertSignup h with ⟨users, hin, -, rfl⟩ | ⟨-, -, -, rfl⟩
    · exact insert_keeps_details hin
    · rfl
  | updateDetails id sets =>
    rcases exec_updateDetails h with ⟨rfl, -, rfl⟩ | ⟨u, users, rfl, hu, -, rfl, hrows⟩
    · rfl
    · obtain ⟨users', hupdate, -, hdb⟩ := Db.updateUsers_ok h
      obtain rfl : users = users' := congrArg Db.users hdb
      funext cell
      by_cases hk : cell.1 = id
      · have hget : users.get id = some (u.amend sets id.display now) := by
          obtain ⟨hmem, hid⟩ := Table.get_eq_some.mp hu
          exact Table.get_eq_some.mpr ⟨hrows ▸ List.mem_map.mpr ⟨u, hmem, if_pos hid⟩, hid⟩
        have hafter : { db with users }.detail cell = (assigned sets cell.2).or (u.details.get cell.2) := by
          show (users.get cell.1).bind _ = _
          rw [hk, hget]
          exact Details.get_assigned _ _ _
        have hbefore : db.detail cell = u.details.get cell.2 := by
          show (db.users.get cell.1).bind _ = _
          rw [hk, hu]
          rfl
        rw [hafter]
        show _ = ((if cell.1 = id then (assigned sets cell.2).map some else none).getD (db.detail cell))
        rw [if_pos hk, hbefore]
        cases assigned sets cell.2 <;> rfl
      · show (users.get cell.1).bind _ =
          ((if cell.1 = id then (assigned sets cell.2).map some else none).getD (db.detail cell))
        rw [if_neg hk]
        show (users.get cell.1).bind _ = (db.users.get cell.1).bind _
        rw [Table.update_get hupdate]
        cases hget : db.users.get cell.1 with
        | none => rfl
        | some v =>
          have hid : v.id ≠ id := fun e => hk ((Table.get_eq_some.mp hget).2.symm.trans e)
          simp [hid]
  | _ =>
    funext cell
    show (db'.users.get cell.1).bind _ = (db.users.get cell.1).bind _
    rw [(exec_framed _ h).users (by simp [Stmt.writes])]

theorem act_detail (a : Act) (i : Env) (w : World) :
    (a.exec i w).2.db.detail = overlay w.db.detail (patched ⟨a, (a.exec i w).1⟩) := by
  cases a with
  | sql q =>
    show (q.answer i w.db).2.detail = overlay w.db.detail (patched ⟨.sql q, (q.answer i w.db).1⟩)
    cases hr : (q.answer i w.db).1 with
    | ok r => exact exec_detail (Stmt.answer_ok hr).2
    | error e =>
      rw [Stmt.answer_error hr]
      cases q <;> rfl
  | _ => rfl

end

/-! ## Whole runs -/

/-- **The details are authored.** After every run a column holds its first value and
no accepted patch set it, or the value an accepted patch gives it: the patch of a
call that speaks for the principal, no longer than the column allows. -/
theorem details_authored (P : Portal) (pool : PortalPool) (hcalls : pool.calls = []) (ms : List PortalMove)
    (user : Uuid) (c : DetailColumn) :
    ((pool.play (PortalCall.verb P) ms).world.db.detail (user, c) = pool.world.db.detail (user, c) ∧
      ∀ d ∈ (pool.play (PortalCall.verb P) ms).calls, ∀ sets,
        ⟨.sql (.updateDetails user sets), .ok (1 : Nat)⟩ ∈ d.past → c ∉ sets.map Prod.fst) ∨
    ∃ d ∈ (pool.play (PortalCall.verb P) ms).calls, ∃ before after patch v,
      d.tag.patch = some patch ∧ d.past = before ++ ⟨.sql (.updateDetails user patch.sets), .ok (1 : Nat)⟩ :: after ∧
      P.SpeaksFor d.tag before user ∧ patch.arm c = some v ∧ byteLen v ≤ c.max ∧
      (pool.play (PortalCall.verb P) ms).world.db.detail (user, c) = some v := by
  have hheeded := Pool.play_heeds (M := portalMachine) (PortalCall.verb P) (verb_heeds P) hcalls ms
  rcases Pool.play_cells (M := portalMachine) (PortalCall.verb P) (fun w => w.db.detail) patched act_detail
    hcalls ms (user, c) with ⟨hsame, hnone⟩ | ⟨d, hd, ev, hev, hv⟩
  · refine .inl ⟨hsame, fun d hd sets hev => assigned_none.mp ?_⟩
    have hwrites := hnone d hd _ hev
    simpa [patched] using hwrites
  · obtain ⟨sets, v, rfl, hend, hlast⟩ := patched_some hv
    obtain ⟨before, after, hpast⟩ := List.append_of_mem hev
    obtain ⟨hspeaks, patch, hpatch, -, hvalid, rfl⟩ := hheeded d hd before _ after hpast
    have harm : patch.arm c = some v := PortalDetailPatch.mem_sets.mp (assigned_mem hlast)
    exact .inr ⟨d, hd, before, after, patch, v, hpatch, hpast, hspeaks, harm,
      PortalDetailPatch.validate_ok_iff.mp hvalid c v harm, hend⟩

namespace Probe

/-- Two patches of one row that cross. -/
def crossed : List PortalMove :=
  [.start (.request (.updateMyDetails holder { city := some "Bandung" })),
    .start (.request (.updateMyDetails holder { zip := some "40111" })), .step 0 env, .step 1 env, .step 0 env]

end Probe

theorem details_authored_probe :
    ∃ d ∈ ((Probe.stage Probe.enrolled).play (PortalCall.verb Probe.portal) Probe.crossed).calls,
      ∃ before patch, d.tag.patch = some patch ∧ Probe.portal.SpeaksFor d.tag before (Probe.uuid 2) ∧
        patch.city = some "Bandung" := by
  have hcell : ((Probe.stage Probe.enrolled).play (PortalCall.verb Probe.portal) Probe.crossed).world.db.detail
      (Probe.uuid 2, .city) = some "Bandung" := by decide +kernel
  rcases details_authored Probe.portal (Probe.stage Probe.enrolled) rfl Probe.crossed (Probe.uuid 2) .city with
    ⟨hsame, -⟩ | ⟨d, hd, before, after, patch, v, hpatch, -, hspeaks, harm, -, hend⟩
  · rw [hcell] at hsame
    exact absurd hsame (by decide +kernel)
  · cases hcell.symm.trans hend
    exact ⟨d, hd, before, patch, hpatch, hspeaks, harm⟩

end BackbonePortal
