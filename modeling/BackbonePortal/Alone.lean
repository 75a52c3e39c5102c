import BackbonePortal.Ensures

/-!
# A verb alone

The run of a verb without interference, one input an action: the rules for its
steps, then the outcome of the bearer mint and of the redemption as conditions
on the inputs and the tables.
-/

namespace BackbonePortal

open Proc Tables

variable {α β : Type}

def from_ (k : Nat) (i : Nat → Env) : Nat → Env := fun n => i (n + k)

@[simp] theorem from_apply (k n : Nat) (i : Nat → Env) : from_ k i n = i (n + k) := rfl

@[simp] theorem from_from (k l : Nat) (i : Nat → Env) : from_ k (from_ l i) = from_ (k + l) i := by
  funext n
  simp only [from_apply, Nat.add_assoc]

theorem grows_run (p : Verb α) (i : Nat → Env) (w : World) : Grows w (p.run portalMachine i w).2 :=
  Prog.run_keeps (M := portalMachine) (I := Grows w) (fun a _ i w' h => h.trans (grows_exec a i w'))
    p.all_true i
    (Grows.refl w)

def TableName.Same (n : TableName) (db db' : Db) : Prop :=
  match n with
  | .users => db'.users = db.users
  | .tokens => db'.tokens = db.tokens
  | .invites => db'.invites = db.invites
  | .policies => db'.policies = db.policies
  | .trail => db'.trail = db.trail

theorem TableName.Same.refl (n : TableName) (db : Db) : n.Same db db := by cases n <;> rfl

theorem TableName.Same.trans {n : TableName} {db₁ db₂ db₃ : Db} (h : n.Same db₁ db₂) (h' : n.Same db₂ db₃) :
    n.Same db₁ db₃ := by
  cases n <;> exact Eq.trans h' h

theorem Framed.same {ts : List TableName} {db db' : Db} (h : Framed ts db db') {n : TableName} (hn : n ∉ ts) :
    n.Same db db' := by
  cases n with
  | users => exact h.users hn
  | tokens => exact h.tokens hn
  | invites => exact h.invites hn
  | policies => exact h.policies hn
  | trail => exact h.trail hn

def Act.Spares (n : TableName) : Act → Prop
  | .sql q => n ∉ q.writes
  | _ => True

theorem act_spares {n : TableName} {a : Act} (h : a.Spares n) (i : Env) (w : World) :
    n.Same w.db (a.exec i w).2.db := by
  cases a with
  | sql q =>
    show n.Same w.db (q.answer i w.db).2
    cases hq : (q.answer i w.db).1 with
    | error e => rw [Stmt.answer_error hq]; exact .refl n _
    | ok r => exact (exec_framed q (Stmt.answer_ok hq).2).same h
  | _ => exact .refl n _

theorem run_spares {n : TableName} {p : Verb α} (hp : p.All (Act.Spares n)) (i : Nat → Env) (w : World) :
    n.Same w.db (p.run portalMachine i w).2.db :=
  Prog.run_keeps (M := portalMachine) (I := fun w' => n.Same w.db w'.db)
    (fun _ ha i w' h => h.trans (act_spares ha i w')) hp i (.refl n _)

def Act.Storeless : Act → Prop
  | .sql _ => False
  | _ => True

theorem run_storeless {p : Verb α} (hp : p.All Act.Storeless) (i : Nat → Env) (w : World) :
    (p.run portalMachine i w).2.db = w.db := by
  refine Prog.run_keeps (M := portalMachine) (I := fun w' => w'.db = w.db) (fun a ha i w' h => ?_) hp i rfl
  cases a with
  | sql q => exact ha.elim
  | _ => exact h

theorem Guarded.trace {Pre : Act → World → Prop} {Q : Except Halt α → World → Prop} {p : Verb α} {w : World}
    (hp : Guarded Pre Q p w) (i : Nat → Env) : ∀ ev ∈ p.trace portalMachine i w,
      ∃ w', Grows w w' ∧ Pre ev.act w' ∧ Grows w' (p.run portalMachine i w).2 := by
  induction p generalizing w i with
  | ret a => intro ev h; cases h
  | fail e => intro ev h; cases h
  | act a k ih =>
    obtain ⟨hpre, hk⟩ := hp w (Grows.refl w)
    have hstep := grows_exec a (i 0) w
    intro ev h
    rcases List.mem_cons.mp h with rfl | h
    · exact ⟨w, Grows.refl w, hpre, hstep.trans (grows_run (k _) _ _)⟩
    · obtain ⟨w', hw', hp', hl⟩ := ih _ (hk (i 0)) _ ev h
      exact ⟨w', hstep.trans hw', hp', hl⟩

theorem Ensures.run {Q : Except Halt α → World → Prop} {p : Verb α} {w : World}
    (hp : Ensures Q p w) (i : Nat → Env) :
    Q (p.run portalMachine i w).1 (p.run portalMachine i w).2 := by
  induction p generalizing w i with
  | ret a => exact hp w (Grows.refl w)
  | fail e => exact hp w (Grows.refl w)
  | act a k ih => exact ih _ ((hp w (Grows.refl w)).2 (i 0)) _

section
variable (i : Nat → Env) (w : World)

theorem run_newUuid (f : Uuid → Verb α) : (newUuid.bind f).run portalMachine i w =
    (f (i 0).uuid).run portalMachine (from_ 1 i) { w with clock := (i 0).now } := rfl

theorem run_mintNonce (f : String → Verb α) : (mintNonce.bind f).run portalMachine i w =
    (f (nonceOf (i 0).nonce)).run portalMachine (from_ 1 i) { w with clock := (i 0).now } := rfl

theorem run_utcNow (f : Instant → Verb α) : (utcNow.bind f).run portalMachine i w =
    (f (i 0).now).run portalMachine (from_ 1 i) { w with clock := (i 0).now } := rfl

theorem run_checkCredential (email presented : String) (f : Option (Except String Bool) → Verb α) :
    ((checkCredential email presented).bind f).run portalMachine i w =
    (f (i 0).verdict).run portalMachine (from_ 1 i)
      { w with gate := w.gate ++ [.asked email (i 0).now (i 0).verdict], clock := (i 0).now } := rfl

theorem run_query (q : Stmt) (f : q.Res → Verb α) :
    (∃ e, (q.answer (i 0) w.db).1 = .error e ∧
      ((query q).bind f).run portalMachine i w = (.error (.err (.db e)), { w with clock := (i 0).now })) ∨
    (∃ r, (q.answer (i 0) w.db).1 = .ok r ∧
      ((query q).bind f).run portalMachine i w =
        (f r).run portalMachine (from_ 1 i) { w with db := (q.answer (i 0) w.db).2, clock := (i 0).now }) := by
  have h : ((query q).bind f).run portalMachine i w =
    (Prog.bind (match (q.answer (i 0) w.db).1 with | .ok r => .ret r | .error e => .fail (.err (.db e))) f).run
      portalMachine (from_ 1 i) { w with db := (q.answer (i 0) w.db).2, clock := (i 0).now } := rfl
  rw [h]
  cases ha : (q.answer (i 0) w.db).1 with
  | error e => rw [Stmt.answer_error ha]; exact .inl ⟨e, rfl, rfl⟩
  | ok r => exact .inr ⟨r, rfl, rfl⟩

theorem trace_query_error {q : Stmt} {f : q.Res → Verb α} {e : SqlError}
    (h : (q.answer (i 0) w.db).1 = .error e) :
    ((query q).bind f).trace portalMachine i w = [⟨.sql q, .error e⟩] := by
  show ⟨.sql q, (q.answer (i 0) w.db).1⟩ :: Prog.trace portalMachine
    (Prog.bind
      (match (q.answer (i 0) w.db).1 with | .ok r => .ret r | .error e => .fail (.err (.db e))) f) _ _ = _
  rw [h]
  rfl

theorem run_query_ok {q : Stmt} {f : q.Res → Verb α} {r : q.Res} {db' : Db}
    (h : q.answer (i 0) w.db = (.ok r, db')) :
    ((query q).bind f).run portalMachine i w =
      (f r).run portalMachine (from_ 1 i) { w with db := db', clock := (i 0).now } := by
  rcases run_query i w q f with ⟨e, he, -⟩ | ⟨r', hr, hrun⟩
  · rw [h] at he; cases he
  · rw [h] at hr hrun; cases hr; exact hrun

theorem run_query_fault {q : Stmt} {f : q.Res → Verb α} {text : String}
    (h : (i 0).fault = some text) :
    ((query q).bind f).run portalMachine i w =
    (.error (.err (.db (.fault text))), { w with clock := (i 0).now }) := by
  have hans : q.answer (i 0) w.db = (.error (.fault text), w.db) := Stmt.answer_fault h
  rcases run_query i w q f with ⟨e, he, hrun⟩ | ⟨r, hr, -⟩
  · rw [hans] at he
    cases he
    exact hrun
  · rw [hans] at hr
    cases hr

end

theorem appendAudit_ok {event : AuditEvent} {i : Env} {db : Db} :
    (∃ r, ((Stmt.appendAudit event).answer i db).1 = .ok r) ↔ i.fault = none := by
  cases hf : i.fault with
  | none => exact ⟨fun _ => rfl, fun _ => ⟨(), by rw [Stmt.answer_of_ok hf rfl]⟩⟩
  | some text => simp [Stmt.answer_fault hf]

/-! ## What a success leaves -/

/-- Alone, `p` leaves a database in `S` whenever it succeeds. -/
def Leaves (S : Db → Prop) (p : Verb α) (w : World) : Prop :=
  ∀ i r, (p.run portalMachine i w).1 = .ok r → S (p.run portalMachine i w).2.db

section
variable {S : Db → Prop} {w : World}

theorem leaves_ret {a : α} (h : S w.db) : Leaves S (.ret a) w := fun _ _ _ => h

theorem leaves_fail {e : Halt} : Leaves S (.fail e : Verb α) w := fun _ _ h => nomatch h

theorem leaves_refuse {e : PortalError} : Leaves S (refuse e : Verb α) w := leaves_fail

theorem leaves_act {a : Act} {k : a.Res → Verb α} (h : ∀ i, Leaves S (k (a.exec i w).1) (a.exec i w).2) :
    Leaves S (.act a k) w := fun i r hr => h (i 0) _ r hr

theorem leaves_bind {p : Verb β} {f : β → Verb α}
    (h : ∀ i b, (p.run portalMachine i w).1 = .ok b → Leaves S (f b) (p.run portalMachine i w).2) :
    Leaves S (p.bind f) w := by
  intro i r hr
  rw [Prog.run_bind] at hr ⊢
  have hb := h i
  generalize p.run portalMachine i w = o at hr hb ⊢
  obtain ⟨e | b, w'⟩ := o
  · cases hr
  · exact hb b rfl _ r hr

theorem leaves_query {q : Stmt} {f : q.Res → Verb α}
    (h : ∀ i r, (q.answer i w.db).1 = .ok r →
      Leaves S (f r) { w with db := (q.answer i w.db).2, clock := i.now }) :
    Leaves S ((query q).bind f) w := by
  apply leaves_act
  intro i
  cases hq : (Act.exec (.sql q) i w).1 with
  | ok r => exact h i r hq
  | error e => exact leaves_fail

theorem leaves_busQuery {P : Portal} {label : String} {q : Stmt} {f : q.Res → Verb α}
    (h : ∀ i r, (q.answer i w.db).1 = .ok r →
      Leaves S (f r) { w with db := (q.answer i w.db).2, clock := i.now }) :
    Leaves S ((P.busQuery label q).bind f) w := by
  apply leaves_act
  intro i
  cases hq : (Act.exec (.sql q) i w).1 with
  | ok r => exact h i r hq
  | error e => exact leaves_fail

theorem leaves_stable (inv : ∀ db db', Evolves db db' → S db → S db') (p : Verb α) (h : S w.db) :
    Leaves S p w :=
  fun i _ _ => inv _ _ (grows_run p i w) h

theorem leaves_spares {n : TableName} (congr : ∀ db db', n.Same db db' → S db → S db') {p : Verb α}
    (hp : p.All (Act.Spares n)) (h : S w.db) : Leaves S p w := fun i _ _ => congr _ _ (run_spares hp i w) h

end

/-! ## What an insertion needs -/

theorem digitOf_ne_blank (v : Nat) : digitOf (v % 16) ≠ ' ' := by
  have : ∀ d < 16, digitOf d ≠ ' ' := by decide
  exact this _ (Nat.mod_lt _ (by decide))

theorem blank_notMem_hexDigits (n v : Nat) : ' ' ∉ hexDigits n v := by
  induction n generalizing v with
  | zero => exact List.not_mem_nil
  | succ n ih =>
    intro h
    rcases List.mem_append.mp h with h | h
    · exact ih _ h
    · exact digitOf_ne_blank v (List.mem_singleton.mp h).symm

theorem trimBy_of_forall {p : Char → Bool} {s : String} (h : ∀ c ∈ s.toList, p c = false) : trimBy p s = s := by
  have drop : ∀ cs : List Char, (∀ c ∈ cs, p c = false) → cs.dropWhile p = cs := by
    intro cs hcs
    cases cs with
    | nil => rfl
    | cons c cs => rw [List.dropWhile_cons_of_neg (by simp [hcs c])]
  rw [trimBy, drop _ h, drop _ (by simpa using h), List.reverse_reverse, String.ofList_toList]

theorem nonceOf_stored (b : BitVec 128) : withinLength 64 (nonceOf b) = true ∧ notBlank (nonceOf b) = true := by
  have hlen : (nonceOf b).length = 32 := by rw [nonceOf, String.length_ofList, hexDigits_length]
  refine ⟨by simp [withinLength, hlen], ?_⟩
  have htrim : btrim (nonceOf b) = nonceOf b := trimBy_of_forall fun c hc => by
    rw [nonceOf, String.toList_ofList] at hc
    exact decide_eq_false fun e => blank_notMem_hexDigits _ _ (e ▸ hc)
  simp only [notBlank, htrim, decide_eq_true_eq]
  intro h
  rw [h] at hlen
  cases hlen

structure BearerFits (id user : Uuid) (nonce : String) (db : Db) : Prop where
  key : db.tokens.get id = none
  selector : ∀ t ∈ db.tokens.rows, t.tokenNonce ≠ nonce
  owner : (db.users.get user).isSome

theorem insertToken_fits {db : Db} {id user : Uuid} {bits : BitVec 128} (expires now : Instant) :
    (∃ db', db.insertToken (.fresh id user (nonceOf bits) expires now) = .ok db') ↔
      BearerFits id user (nonceOf bits) db := by
  have hb : tokenSchema.broken (.fresh id user (nonceOf bits) expires now) = none := by
    simp [Schema.broken, tokenSchema, PortalToken.fresh, optionally, nonceOf_stored bits]
  have hc : db.tokens.conflict (.fresh id user (nonceOf bits) expires now) = none ↔
      db.tokens.get id = none ∧ ∀ t ∈ db.tokens.rows, t.tokenNonce ≠ nonceOf bits := by
    rw [Table.conflict_eq_none, Table.get_eq_none, and_iff_right hb]
    simp [tokenSchema, PortalToken.fresh]
  constructor
  · rintro ⟨db', h⟩
    obtain ⟨tokens, hi, ho, -⟩ := Db.insertToken_ok h
    obtain ⟨hk, hn⟩ := hc.mp (Table.insert_eq_ok.mp hi).1
    exact ⟨hk, hn, ho⟩
  · rintro ⟨hk, hn, ho⟩
    unfold Db.insertToken
    cases hi : db.tokens.insert (.fresh id user (nonceOf bits) expires now) with
    | error c => rw [Table.insert_eq_error, hc.mpr ⟨hk, hn⟩] at hi; cases hi
    | ok tokens =>
      dsimp only
      rw [if_neg (by simpa [PortalToken.fresh] using Option.isSome_iff_ne_none.mp ho)]
      exact ⟨_, rfl⟩

theorem insertToken_answer {db : Db} {id user : Uuid} {bits : BitVec 128} {expires : Instant} {i : Env} :
    (∃ r, ((Stmt.insertToken id user (nonceOf bits) expires).answer i db).1 = .ok r) ↔
      i.fault = none ∧ BearerFits id user (nonceOf bits) db := by
  rw [← insertToken_fits expires i.now.stored]
  constructor
  · rintro ⟨r, h⟩
    obtain ⟨hf, hq⟩ := Stmt.answer_ok h
    exact ⟨hf, _, exec_insertToken hq⟩
  · rintro ⟨hf, db', h⟩
    have hq : (Stmt.insertToken id user (nonceOf bits) expires).exec i.now.stored i.scan db =
      .ok ((), db') := by
      simp only [Stmt.exec, h]
    exact ⟨(), by rw [Stmt.answer_of_ok hf hq]⟩

theorem freshUser_broken {id : Uuid} {email : String} {now : Instant} :
    userSchema.broken (.fresh id email now) = none ↔ withinLength 320 email = true ∧ notBlank email = true := by
  simp [Schema.broken, userSchema, PortalUser.fresh, optionally]

theorem freshUser_conflict {db : Db} {id : Uuid} {email : String} (now : Instant)
    (hc : withinLength 320 email = true ∧ notBlank email = true) :
    db.users.conflict (.fresh id email now) = none ↔ db.users.get id = none ∧ db.principal email = none := by
  rw [Table.conflict_eq_none, Table.get_eq_none, Db.principal_eq_none, freshUser_broken]
  simp only [hc, true_and, and_self]
  refine and_congr Iff.rfl ⟨fun h u hu hl he => ?_, fun h j hj u hu hi => ?_⟩
  · exact h email rfl u hu (by simp [userSchema, hl, he])
  · cases hj
    simp only [userSchema] at hi
    split at hi
    next hl => exact h u hu hl (Option.some.inj hi)
    next => cases hi

/-! ## The bearer mint -/

def Lasts (perUnit n : Int) (now : Instant) : Prop :=
  n * perUnit ≤ 9223372036854775 ∧ now + seconds (n * perUnit) ≤ maxUtc

theorem lifetime_eq (unit : String) (perUnit n : Int) (now : Instant) :
    (Lasts perUnit n now ∧ lifetime unit perUnit n now = .ret (now + seconds (n * perUnit))) ∨
      (¬Lasts perUnit n now ∧ ∃ m, lifetime unit perUnit n now = .fail (.panicked m)) := by
  unfold lifetime Lasts
  split
  next h => exact .inr ⟨fun hl => absurd h (Int.not_lt.mpr hl.1), _, rfl⟩
  next h =>
    split
    next h' => exact .inr ⟨fun hl => absurd h' (Int.not_lt.mpr hl.2), _, rfl⟩
    next h' => exact .inl ⟨⟨Int.not_lt.mp h, Int.not_lt.mp h'⟩, rfl⟩

structure MintFits (user : Uuid) (i : Nat → Env) (db : Db) : Prop where
  fits : BearerFits (i 0).uuid user (nonceOf (i 1).nonce) db
  inserted : (i 3).fault = none
  audited : (i 4).fault = none

theorem secret_eq {P : Portal} (h : P.bearerSecret ≠ []) : P.secret = .ok P.bearerSecret := if_neg h

theorem bearerLink_ok {P : Portal} (h : P.bearerSecret ≠ []) (id user : Uuid)
    (nonce : String) (expires : Instant) :
    ∃ link, P.bearerLink id user nonce expires = .ok link := by
  rw [Portal.bearerLink, secret_eq h]
  exact ⟨_, rfl⟩

theorem mintBearer_ends (P : Portal) (user : Uuid) (ttl : Int) : (P.mintBearer user ttl).Ends fun o =>
    (∃ link, o = .ok link) ∨ (∃ m, o = .error (.panicked m)) ∨
      ∃ e, o = .error (.err e) ∧ (e = .bearerSecretNotConfigured ∨ ∃ s, e = .db s) := by
  unfold Portal.mintBearer
  by_cases hs : P.bearerSecret = []
  · rw [Portal.secret, if_pos hs]
    exact .inr (.inr ⟨_, rfl, .inl rfl⟩)
  rw [secret_eq hs]
  intro id nonce now
  show (Prog.bind (lifetime "hours" 3600 (max ttl 1) now) _).Ends _
  rcases lifetime_eq "hours" 3600 (max ttl 1) now with ⟨-, hlife⟩ | ⟨-, m, hlife⟩
  · rw [hlife]
    intro r
    cases r with
    | error e => exact .inr (.inr ⟨_, rfl, .inr ⟨e, rfl⟩⟩)
    | ok u =>
      intro r
      cases r with
      | error e => exact .inr (.inr ⟨_, rfl, .inr ⟨e, rfl⟩⟩)
      | ok u =>
        obtain ⟨link, hlink⟩ := bearerLink_ok hs id user nonce (now + seconds (max ttl 1 * 3600))
        show (ofExcept (P.bearerLink id user nonce _)).Ends _
        rw [hlink]
        exact .inl ⟨link, rfl⟩
  · rw [hlife]
    exact .inr (.inl ⟨m, rfl⟩)

theorem mintBearer_alone {P : Portal} (hs : P.bearerSecret ≠ []) (user : Uuid) (ttl : Int)
    (i : Nat → Env) (w : World) :
    let o := ((P.mintBearer user ttl).run portalMachine i w).1
    (¬Lasts 3600 (max ttl 1) (i 2).now ∧ ∃ m, o = .error (.panicked m)) ∨
    (Lasts 3600 (max ttl 1) (i 2).now ∧ MintFits user i w.db ∧ ∃ link, o = .ok link) ∨
    (Lasts 3600 (max ttl 1) (i 2).now ∧ ¬MintFits user i w.db ∧ ∃ e, o = .error (.err e)) := by
  simp only [Portal.mintBearer, secret_eq hs, Prog.bind_eq, ofExcept_ok, Prog.bind_ret, run_newUuid,
    run_mintNonce, run_utcNow, from_from, from_apply, hoursAfter]
  rcases lifetime_eq "hours" 3600 (max ttl 1) (i 2).now with ⟨hl, hlife⟩ | ⟨hl, m, hlife⟩
  · rw [hlife, Prog.bind_ret]
    rcases run_query _ _ (.insertToken _ _ _ _) _ with ⟨e, he, hrun⟩ | ⟨r, hr, hrun⟩
    · rw [hrun]
      refine .inr (.inr ⟨hl, fun h => ?_, _, rfl⟩)
      obtain ⟨r, hr⟩ := insertToken_answer.mpr ⟨h.inserted, h.fits⟩
      cases hr.symm.trans he
    rw [hrun]
    obtain ⟨hin, hfits⟩ := insertToken_answer.mp ⟨r, hr⟩
    rcases run_query _ _ (.appendAudit _) _ with ⟨e, he, hrun⟩ | ⟨r, hr, hrun⟩
    · rw [hrun]
      refine .inr (.inr ⟨hl, fun h => ?_, _, rfl⟩)
      obtain ⟨r, hr⟩ := appendAudit_ok.mpr h.audited
      cases hr.symm.trans he
    rw [hrun]
    obtain ⟨link, hlink⟩ := bearerLink_ok hs _ _ _ _
    rw [hlink]
    exact .inr (.inl ⟨hl, ⟨hfits, hin, appendAudit_ok.mp ⟨r, hr⟩⟩, link, rfl⟩)
  · rw [hlife]
    exact .inl ⟨hl, m, rfl⟩

/-! ## The redemption -/

def PortalInvite.joined (v : PortalInvite) : InviteJoin :=
  ⟨v.recipientEmail, v.tokenNonce, v.tokenExpiresAt, v.status⟩

theorem redeem_broken (v : PortalInvite) (user : Uuid) (now : Instant) :
    inviteSchema.broken (v.redeem user now) = inviteSchema.broken v := by
  simp only [Schema.broken, inviteSchema, PortalInvite.redeem, List.find?]

theorem recipient_checked {db : Db} {id : Uuid} {v : PortalInvite} (hv : db.invites.get id = some v) :
    withinLength 320 v.recipientEmail = true ∧ notBlank v.recipientEmail = true := by
  have := db.invites.checked v (Table.get_eq_some.mp hv).1
  simp only [Schema.broken, inviteSchema, Option.map_eq_none_iff, List.find?_eq_none, List.mem_cons,
    forall_eq_or_imp, Bool.not_eq_true, Bool.not_eq_false'] at this
  exact ⟨this.1, this.2.1⟩

theorem redeemInvite_pending {db : Db} {id user : Uuid} {email : String} {v : PortalInvite}
    {now : Instant} {scan : Nat}
    (hv : db.invites.get id = some v) (hp : v.status = .pending) :
    ∃ settled : Table inviteSchema, (Stmt.redeemInvite id user email).exec now scan db =
      match db.users.insert (.fresh user email now) with
      | .ok users => .ok (true, { db with invites := settled, users })
      | .error c => .error (.violates c) := by
  have hone : (db.invites.rows.filter fun v => v.id = id && v.status = .pending) = [v] := by
    rw [db.invites_with_id, hv]
    simp [Option.filter_some, hp]
  obtain ⟨settled, hu⟩ : ∃ settled, db.invites.update (fun v => v.id = id && v.status = .pending)
      (·.redeem user now) (fun _ => rfl) (fun _ => rfl) = .ok ([v.redeem user now], settled) := by
    obtain ⟨settled, hu, -⟩ := Table.update_ok db.invites fun r hr _ =>
      (redeem_broken r user now).trans (db.invites.checked r hr)
    rw [hone] at hu
    exact ⟨settled, hu⟩
  refine ⟨settled, ?_⟩
  simp only [Stmt.exec, hu, List.length_singleton, ne_eq, not_true_eq_false, if_false, Db.insertUser]
  cases db.users.insert (.fresh user email now) <;> rfl

theorem redeemInvite_settles {db : Db} {id user : Uuid} {v : PortalInvite} {now : Instant} {scan : Nat}
    (hv : db.invites.get id = some v) (hp : v.status = .pending) :
    (∃ db', (Stmt.redeemInvite id user v.recipientEmail).exec now scan db = .ok (true, db')) ↔
      db.users.get user = none ∧ db.principal v.recipientEmail = none := by
  obtain ⟨settled, hq⟩ := redeemInvite_pending hv hp
  rw [hq, ← freshUser_conflict now (recipient_checked hv)]
  cases hin : db.users.insert (.fresh user v.recipientEmail now) with
  | error c => simp [Table.insert_eq_error.mp hin]
  | ok users => simp [(Table.insert_eq_ok.mp hin).1]

/-- The presentation is accepted: the reads find nothing to refuse. -/
structure Portal.Accepts (P : Portal) (link email : String) (i : Nat → Env) (db : Db) (parts : ParsedCapability)
    (v : PortalInvite) : Prop where
  parsed : parseCapability link = some parts
  stored : db.invites.get parts.id = some v
  live : v.live = true
  agrees : P.inviteAgrees parts (P.normalizeEmail email) v.joined = true
  unexpired : (i 1).now ≤ v.tokenExpiresAt
  read : (i 0).fault = none

def Portal.afterRedemption (P : Portal) (user invite : Uuid) (email : String) : Verb (Uuid × String) := do
  audit "invite_redeemed" (some user) (some invite) none "recipient" (.object [("email", .str email)])
  let bearer ← P.mintBearer user defaultBearerTtlHours
  pure (user, bearer)

theorem inviteAgrees_pending {P : Portal} {parts : ParsedCapability} {presenting : String} {row : InviteJoin}
    (h : P.inviteAgrees parts presenting row = true) :
    presenting = row.recipientEmail ∧ row.status = .pending ∧ P.bearerSecret ≠ [] := by
  simp only [Portal.inviteAgrees, Bool.and_eq_true, decide_eq_true_eq, and_assoc] at h
  obtain ⟨hmac, -, -, he, hs⟩ := h
  refine ⟨he, hs, fun hn => ?_⟩
  rw [Portal.verifyInviteMac, Portal.secret, if_pos hn] at hmac
  cases hmac

section
variable {P : Portal} {link email : String} {i : Nat → Env} {w w' : World}

theorem redeem_accepted {parts : ParsedCapability} {v : PortalInvite}
    (h : P.Accepts link email i w.db parts v) :
    (P.redeem link email).run portalMachine i w =
      ((query (.redeemInvite parts.id (i 2).uuid v.recipientEmail)).bind fun
        | false => refuse .credentialRefused
        | true => P.afterRedemption (i 2).uuid parts.id v.recipientEmail).run portalMachine (from_ 3 i)
          { w with clock := (i 2).now } := by
  have hread : (Stmt.inviteById parts.id).answer (i 0) w.db = (.ok (some v.joined), w.db) := by
    apply Stmt.answer_of_ok h.read
    simp only [Stmt.exec, h.stored, Option.filter_some, h.live, if_true, Option.map_some]
    rfl
  unfold Portal.redeem
  simp only [h.parsed]
  rw [Prog.bind_eq, run_query_ok i w hread]
  simp only [h.agrees, Bool.true_eq_false, if_false]
  have hexp : ¬v.joined.expiresAt < (from_ 1 i 0).now := Int.not_lt.mpr h.unexpired
  rw [Prog.bind_eq, run_utcNow, if_neg hexp, Prog.bind_eq, run_newUuid]
  refine congrArg
    (fun f => Prog.run portalMachine (Prog.bind (query _) f) (from_ 3 i) { w with clock := (i 2).now })
    (funext fun r => ?_)
  cases r <;> rfl

theorem redeem_refused {o : Except Halt (Uuid × String)} (hno : ∀ parts v, ¬P.Accepts link email i w.db parts v)
    (h : (P.redeem link email).run portalMachine i w = (o, w')) :
    (∃ e, o = .error (.err e)) ∧ w'.db = w.db := by
  unfold Portal.redeem at h
  dsimp only at h
  split at h
  · cases h; exact ⟨⟨_, rfl⟩, rfl⟩
  next parts hp =>
    rcases run_query i w (.inviteById parts.id) _ with ⟨e, he, hrun⟩ | ⟨row, hrow, hrun⟩
    · cases hrun.symm.trans h; exact ⟨⟨_, rfl⟩, rfl⟩
    replace h := hrun.symm.trans h
    obtain ⟨hread, hq⟩ := Stmt.answer_ok hrow
    simp only [Stmt.exec, Except.ok.injEq, Prod.mk.injEq] at hq
    rw [← hq.2] at h
    cases row with
    | none => cases h; exact ⟨⟨_, rfl⟩, rfl⟩
    | some row =>
      obtain ⟨v, hv, rfl⟩ := Option.map_eq_some_iff.mp hq.1
      obtain ⟨hstored, hlive⟩ := Option.filter_eq_some_iff.mp hv
      dsimp only at h
      split at h
      · cases h; exact ⟨⟨_, rfl⟩, rfl⟩
      next hag =>
        rw [Prog.bind_eq, run_utcNow] at h
        split at h
        · cases h; exact ⟨⟨_, rfl⟩, rfl⟩
        next hexp =>
          exact absurd ⟨hp, hstored, hlive, Bool.not_eq_false _ ▸ hag, Int.not_lt.mp hexp, hread⟩ (hno parts v)

/-- The redemption transaction commits: the presentation is accepted, and the
principal can be inserted. -/
structure Portal.Settles (P : Portal) (link email : String) (i : Nat → Env) (db : Db) (parts : ParsedCapability)
    (v : PortalInvite) : Prop extends P.Accepts link email i db parts v where
  fresh : db.users.get (i 2).uuid = none
  vacant : db.principal v.recipientEmail = none
  committed : (i 3).fault = none

/-- **Redemption.** Alone, `redeem` commits its transaction and goes on, or it
fails and leaves the database as it was. -/
theorem redeem_alone {o : Except Halt (Uuid × String)}
    (h : (P.redeem link email).run portalMachine i w = (o, w')) :
    (∃ parts v db', P.Settles link email i w.db parts v ∧
      (Stmt.redeemInvite parts.id (i 2).uuid v.recipientEmail).exec (i 3).now.stored
      (i 3).scan w.db = .ok (true, db') ∧
      (P.afterRedemption (i 2).uuid parts.id v.recipientEmail).run portalMachine (from_ 4 i)
        { w with db := db', clock := (i 3).now } = (o, w')) ∨
    ((∀ parts v, ¬P.Settles link email i w.db parts v) ∧ (∃ e, o = .error (.err e)) ∧ w'.db = w.db) := by
  by_cases hacc : ∃ parts v, P.Accepts link email i w.db parts v
  swap
  · exact .inr ⟨fun parts v hs => hacc ⟨parts, v, hs.toAccepts⟩,
      redeem_refused (fun parts v ha => hacc ⟨parts, v, ha⟩) h⟩
  obtain ⟨parts, v, ha⟩ := hacc
  rw [redeem_accepted ha] at h
  have hpend : v.status = .pending := (inviteAgrees_pending ha.agrees).2.1
  -- a presentation that settles is this one, and then the transaction answers
  have answered : ∀ parts' v', P.Settles link email i w.db parts' v' → ∃ db',
      (Stmt.redeemInvite parts.id (i 2).uuid v.recipientEmail).answer (i 3) w.db = (.ok true, db') := by
    intro parts' v' hs
    cases hs.parsed.symm.trans ha.parsed
    cases hs.stored.symm.trans ha.stored
    obtain ⟨db', hok⟩ := (redeemInvite_settles ha.stored hpend).mpr ⟨hs.fresh, hs.vacant⟩
    exact ⟨db', Stmt.answer_of_ok hs.committed hok⟩
  rcases run_query _ _ (.redeemInvite parts.id (i 2).uuid v.recipientEmail) _ with ⟨e, he, hrun⟩ | ⟨r, hr, hrun⟩
  · cases hrun.symm.trans h
    refine .inr ⟨fun parts' v' hs => ?_, ⟨_, rfl⟩, rfl⟩
    obtain ⟨db', hok⟩ := answered parts' v' hs
    cases (congrArg Prod.fst hok).symm.trans he
  replace h := hrun.symm.trans h
  obtain ⟨hf, hq⟩ := Stmt.answer_ok hr
  cases r with
  | true =>
    obtain ⟨hfresh, hvacant⟩ := (redeemInvite_settles ha.stored hpend).mp ⟨_, hq⟩
    exact .inl ⟨parts, v, _, ⟨ha, hfresh, hvacant, hf⟩, hq, h⟩
  | false =>
    cases h
    refine .inr ⟨fun parts' v' hs => ?_, ⟨_, rfl⟩, ?_⟩
    · obtain ⟨db', hok⟩ := answered parts' v' hs
      cases (congrArg Prod.fst hok).symm.trans hr
    · rcases exec_redeemInvite hq with ⟨-, hdb⟩ | ⟨_, _, hr, -⟩
      · exact hdb
      · cases hr

end

end BackbonePortal
