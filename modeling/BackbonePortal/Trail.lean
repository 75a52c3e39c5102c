import BackbonePortal.Alone
import BackbonePortal.Footprint
import BackbonePortal.Tallies

/-!
# What is recorded

The trail grows by the audit rows of the calls and by nothing else. `Records`
bounds what was appended between two states.
-/

namespace BackbonePortal

open Proc Tables

def AuditEvent.About (event : AuditEvent) (type : String) (id : Uuid) : Prop :=
  event.subjectType = some type ∧ event.subjectId = some id.display

def AuditEvent.text (event : AuditEvent) (key : String) : Option String :=
  match event.changed with
  | some (.obj fields) => Json.text fields key
  | _ => none

def Db.appended (db : Db) (event : AuditEvent) (now : Instant) : Db :=
  { db with trail := db.trail ++ [⟨event, now⟩] }

theorem appendAudit_answer {event : AuditEvent} {i : Env} {db : Db} (h : i.fault = none) :
    (Stmt.appendAudit event).answer i db = (.ok (), db.appended event i.now.stored) := Stmt.answer_of_ok h rfl

theorem exec_trail (a : Act) (i : Env) (w : World) :
    (∃ event, a = .sql (.appendAudit event) ∧ i.fault = none ∧
      (a.exec i w).2.db.trail = w.db.trail ++ [⟨event, i.now.stored⟩]) ∨
    (a.exec i w).2.db.trail = w.db.trail := by
  by_cases hs : a.Spares .trail
  · exact .inr (act_spares (n := .trail) hs i w)
  · cases a with
    | sql q =>
      cases q with
      | appendAudit event =>
        cases hf : i.fault with
        | none => exact .inl ⟨event, rfl, rfl, by simp only [Act.exec, appendAudit_answer hf, Db.appended]⟩
        | some text => exact .inr (by simp only [Act.exec, Stmt.answer_fault hf])
      | _ => exact absurd (by simp [Act.Spares, Stmt.writes]) hs
    | _ => exact absurd trivial hs

def Db.Records (E : AuditEvent → Prop) (db db' : Db) : Prop :=
  ∃ rest, db'.trail = db.trail ++ rest ∧ ∀ a ∈ rest, E a.event

section
variable {E : AuditEvent → Prop} {db db₁ db₂ : Db}

theorem Db.Records.same (h : db₁.trail = db.trail) : db.Records E db₁ :=
  ⟨[], by rw [h, List.append_nil], fun _ h => nomatch h⟩

theorem Db.Records.refl (E : AuditEvent → Prop) (db : Db) : db.Records E db := .same rfl

theorem Db.Records.trans (h : db.Records E db₁) (h' : db₁.Records E db₂) : db.Records E db₂ := by
  obtain ⟨rest, heq, hall⟩ := h
  obtain ⟨rest', heq', hall'⟩ := h'
  refine ⟨rest ++ rest', by rw [heq', heq, List.append_assoc], fun a ha => ?_⟩
  rcases List.mem_append.mp ha with ha | ha
  · exact hall a ha
  · exact hall' a ha

theorem Db.Records.mono {F : AuditEvent → Prop} (hEF : ∀ event, E event → F event) (h : db.Records E db₁) :
    db.Records F db₁ := by
  obtain ⟨rest, heq, hall⟩ := h
  exact ⟨rest, heq, fun a ha => hEF _ (hall a ha)⟩

theorem Db.appended_records {event : AuditEvent} (h : E event) (now : Instant) :
    db.Records E (db.appended event now) :=
  ⟨[⟨event, now⟩], rfl, fun a ha => by cases List.mem_singleton.mp ha; exact h⟩

end

def Act.Records (E : AuditEvent → Prop) : Act → Prop
  | .sql (.appendAudit event) => E event
  | _ => True

section
variable {E : AuditEvent → Prop} {α : Type}

theorem act_records {a : Act} (h : a.Records E) (i : Env) (w : World) : w.db.Records E (a.exec i w).2.db := by
  rcases exec_trail a i w with ⟨event, rfl, -, ht⟩ | ht
  · exact ⟨_, ht, fun a ha => by cases List.mem_singleton.mp ha; exact h⟩
  · exact .same ht

theorem run_records {p : Verb α} (hp : p.All (Act.Records E)) (i : Nat → Env) (w : World) :
    w.db.Records E (p.run portalMachine i w).2.db :=
  Prog.run_keeps (M := portalMachine) (I := fun w' => w.db.Records E w'.db)
    (fun _ ha i w' h => h.trans (act_records ha i w')) hp i (.refl E _)

end

/-! ## Counting rows -/

def Db.rowsOf (E : AuditEvent → Bool) (db : Db) : Nat := db.trail.countP fun a => E a.event

def AuditEvent.Is (action : String) (user : Uuid) (event : AuditEvent) : Bool :=
  event.action = action && event.subjectId = some user.display

theorem is_row {action : String} {actor : Option String} {id user : Uuid} {detail : Json} :
    AuditEvent.Is action user (recordAudit action actor (some id) none none detail) = decide (id = user) := by
  by_cases h : id = user
  · subst h
    simp [AuditEvent.Is, recordAudit]
  · have hd : id.display ≠ user.display := fun he => h (Uuid.display_inj he)
    simp [AuditEvent.Is, recordAudit, h, hd]

theorem is_other {action : String} {user : Uuid} {event : AuditEvent} (h : event.action ≠ action) :
    event.Is action user = false := by simp [AuditEvent.Is, h]

def appends (E : AuditEvent → Bool) : Event portalSig → Bool
  | ⟨.sql (.appendAudit event), .ok _⟩ => E event
  | _ => false

theorem rowsOf_exec (E : AuditEvent → Bool) (a : Act) (i : Env) (w : World) :
    (a.exec i w).2.db.rowsOf E = w.db.rowsOf E + (appends E ⟨a, (a.exec i w).1⟩).toNat := by
  have same : (a.exec i w).2.db.trail = w.db.trail → appends E ⟨a, (a.exec i w).1⟩ = false →
      (a.exec i w).2.db.rowsOf E = w.db.rowsOf E + (appends E ⟨a, (a.exec i w).1⟩).toNat := by
    intro ht hr
    rw [hr, Db.rowsOf, ht]
    rfl
  cases a with
  | sql q =>
    cases q with
    | appendAudit event =>
      cases hf : i.fault with
      | none =>
        rw [show (Act.sql (.appendAudit event)).exec i w =
          (.ok (), { w with db := w.db.appended event i.now.stored, clock := i.now }) by
            simp only [Act.exec, appendAudit_answer hf]]
        simp only [Db.rowsOf, Db.appended, List.countP_append, List.countP_singleton, appends]
        cases E event <;> rfl
      | some text =>
        exact same (by simp only [Act.exec, Stmt.answer_fault hf])
          (by simp only [Act.exec, Stmt.answer_fault hf]; rfl)
    | _ => exact same (act_spares (n := .trail) (by simp [Act.Spares, Stmt.writes]) i w) rfl
  | _ => exact same rfl rfl

/-! ## Runs without failures -/

def Unfailing {κ : Type} : Move portalMachine κ → Prop
  | .start _ => True
  | .step _ i => i.fault = none

instance {κ : Type} : DecidablePred (Unfailing (κ := κ)) := fun m => by
  cases m <;> unfold Unfailing <;> exact inferInstance

def Written : Event portalSig → Prop
  | ⟨.sql (.appendAudit _), r⟩ => r = .ok ()
  | _ => True

theorem written_answer {a : Act} {i : Env} {w : World} (hf : i.fault = none) : Written ⟨a, (a.exec i w).1⟩ := by
  cases a with
  | sql q =>
    cases q with
    | appendAudit event => simp only [Act.exec, appendAudit_answer hf, Written]
    | _ => trivial
  | _ => trivial

/-! ## What a query is told -/

theorem told_query {α : Type} {Can : Event portalSig → Prop} {q : Stmt} {f : q.Res → Verb α}
    {R : List (Event portalSig) → Except Halt α → Prop}
    (hok : ∀ r, Can ⟨.sql q, .ok r⟩ → (f r).Told Can fun evs o => R (⟨.sql q, .ok r⟩ :: evs) o)
    (herr : ∀ e, Can ⟨.sql q, .error e⟩ → R [⟨.sql q, .error e⟩] (.error (.err (.db e)))) :
    ((query q).bind f).Told Can R := by
  intro r hr
  cases r with
  | ok r => exact hok r hr
  | error e => exact herr e hr

theorem told_busQuery {P : Portal} {α : Type} {Can : Event portalSig → Prop} {label : String}
    {q : Stmt} {f : q.Res → Verb α}
    {R : List (Event portalSig) → Except Halt α → Prop}
    (hok : ∀ r, Can ⟨.sql q, .ok r⟩ → (f r).Told Can fun evs o => R (⟨.sql q, .ok r⟩ :: evs) o)
    (herr : ∀ e m, R [⟨.sql q, .error e⟩] (.error (.event handlerName m))) :
    ((P.busQuery label q).bind f).Told Can R := by
  intro r hr
  cases r with
  | ok r => exact hok r hr
  | error e => exact herr e _

end BackbonePortal
