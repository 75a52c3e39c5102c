import BackbonePortal.Delivery
import BackbonePortal.LinkOrder
import BackbonePortal.Origins

/-!
# Links and gone events

Nothing makes a link unique. Where no event stamps a second live principal, no
two live principals ever share one, and an accepted gone event reaches everybody
who carries it.
-/

namespace BackbonePortal

open Proc Tables

def Db.LinksUnique (db : Db) : Prop :=
  ∀ u ∈ db.users.rows, ∀ v ∈ db.users.rows, u.live = true → v.live = true → ∀ sapiens,
    u.sapiensUserId = some sapiens → v.sapiensUserId = some sapiens → v = u

/-- The stamp finds nobody, or nobody live carries the link yet. -/
def Db.StampFits (db : Db) (sapiens : Uuid) (email : String) : Prop :=
  db.unlinked email = none ∨ ∀ u ∈ db.users.rows, u.live = true → u.sapiensUserId ≠ some sapiens

instance (db : Db) (sapiens : Uuid) (email : String) : Decidable (db.StampFits sapiens email) :=
  inferInstanceAs (Decidable (_ ∨ _))

theorem Db.unlinked_of_mem {db : Db} {u : PortalUser} (hu : u ∈ db.users.rows) (hl : u.live = true)
    (hn : u.sapiensUserId = none) : db.unlinked u.email = some u :=
  Db.unlinked_eq_some.mpr ⟨Db.principal_eq_some.mpr ⟨hu, hl, rfl⟩, hn⟩

theorem links_exec {q : Stmt} {now : Instant} {scan : Nat} {db db' : Db} {r : q.Res}
    (h : q.exec now scan db = .ok (r, db'))
    (hfits : ∀ sapiens email, q = .stampSapiens sapiens email → db.StampFits sapiens email)
    (huniq : db.LinksUnique) : db'.LinksUnique := by
  intro u' hu' v' hv' hlu hlv sapiens hsu hsv
  have linked : ∀ x ∈ db'.users.rows, x.sapiensUserId = some sapiens → ∃ y ∈ db.users.rows, UserStep q y x := by
    intro x hx hs
    rcases user_origin h hx with hy | ⟨id, email, rfl, -⟩
    · exact hy
    · cases hs
  -- a principal the statement stamps is the only one it could have stamped
  have stamped : ∀ x ∈ db.users.rows, ∀ y ∈ db.users.rows, q = .stampSapiens sapiens x.email →
      x.sapiensUserId = none →
      x.live = true → y.live = true → (y.sapiensUserId = some sapiens ∨ q = .stampSapiens sapiens y.email ∧
        y.sapiensUserId = none) → y = x := by
    intro x hx y hy hq hn hlx hly hlink
    rcases hlink with hs | ⟨hq', hn'⟩
    · rcases hfits sapiens x.email hq with hnone | hnobody
      · cases (Db.unlinked_of_mem hx hlx hn).symm.trans hnone
      · exact absurd hs (hnobody y hy hly)
    · have hemail : x.email = y.email := by
        rw [hq] at hq'
        exact (Stmt.stampSapiens.inj hq').2
      exact Option.some.inj ((Db.unlinked_of_mem hy hly hn').symm.trans (hemail ▸ Db.unlinked_of_mem hx hlx hn))
  obtain ⟨u, hu, su⟩ := linked u' hu' hsu
  obtain ⟨v, hv, sv⟩ := linked v' hv' hsv
  have hlu₀ : u.live = true := su.live ▸ hlu
  have hlv₀ : v.live = true := sv.live ▸ hlv
  have hsame : v = u := by
    rcases su.link with hu₀ | ⟨s, hq, hn, -, hs⟩
    · rcases sv.link with hv₀ | ⟨s, hq, hn, -, hs⟩
      · exact huniq u hu v hv hlu₀ hlv₀ sapiens (hu₀ ▸ hsu) (hv₀ ▸ hsv)
      · cases hs.symm.trans hsv
        exact (stamped v hv u hu hq hn hlv₀ hlu₀ (.inl (hu₀ ▸ hsu))).symm
    · cases hs.symm.trans hsu
      apply stamped u hu v hv hq hn hlu₀ hlv₀
      rcases sv.link with hv₀ | ⟨s, hq', hn', -, hs⟩
      · exact .inl (hv₀ ▸ hsv)
      · cases hs.symm.trans hsv
        exact .inr ⟨hq', hn'⟩
  apply db'.users.key_inj hv' hu'
  show v'.id = u'.id
  rw [sv.id, su.id, hsame]

/-! ## Runs -/

/-- The move stamps no principal with a link that another live one carries. -/
def StampsOnce (pool : Pool portalMachine Halt Reply Request) : Move portalMachine Request → Prop
  | .start _ => True
  | .step j _ =>
    match pool.calls[j]?.bind Call.next with
    | some (.sql (.stampSapiens sapiens email)) => pool.world.db.StampFits sapiens email
    | _ => True

instance (pool : Pool portalMachine Halt Reply Request) (m : Move portalMachine Request) :
    Decidable (StampsOnce pool m) := by
  unfold StampsOnce
  split
  · exact inferInstance
  · split <;> exact inferInstance

theorem links_next {P : Portal} {pool : Pool portalMachine Halt Reply Request} {m : Move portalMachine Request}
    (hm : StampsOnce pool m) (huniq : pool.world.db.LinksUnique) :
    (pool.next P.serve m).world.db.LinksUnique := by
  rcases pool.next_cases P.serve m with ⟨t, -, h⟩ | ⟨j, i, c, a, k, rfl, hc, ha, h⟩ | ⟨j, i, -, h⟩
  · rw [h]; exact huniq
  · rw [h]
    show (Act.exec a i pool.world).2.db.LinksUnique
    cases a with
    | sql q =>
      show (q.answer i pool.world.db).2.LinksUnique
      cases hq : (q.answer i pool.world.db).1 with
      | error e => rw [Stmt.answer_error hq]; exact huniq
      | ok r =>
        refine links_exec (Stmt.answer_ok hq).2 (fun sapiens email he => ?_) huniq
        subst he
        simpa only [StampsOnce, hc, Option.bind_some, Call.next_act ha] using hm
    | _ => exact huniq
  · rw [h]; exact huniq

/-- **Reach of a gone event.** In every interleaving that starts on empty tables
and stamps no second principal with one link, an accepted gone event leaves no
live principal with the link unrevoked. -/
theorem gone_reaches_every_link (P : Portal) (pool : Pool portalMachine Halt Reply Request)
    (ms : List (Move portalMachine Request)) (env : Envelope) (sapiens : Uuid) (i : Nat → Env) (w : World)
    (hempty : pool.world.db = Db.empty) (hms : pool.Admits P.serve StampsOnce ms) (he : env.Ends sapiens)
    (hok : (P.handle env).run portalMachine i (pool.play P.serve ms).world = (.ok (), w)) :
    w.db.LinkedRevoked sapiens := by
  have huniq : (pool.play P.serve ms).world.db.LinksUnique := by
    refine Pool.play_keeps_of P.serve
      (I := fun R : Pool portalMachine Halt Reply Request => R.world.db.LinksUnique)
      (fun R m => links_next) ?_ hms
    rw [hempty]
    exact fun u hu => nomatch hu
  refine (gone_reaches_iff he hok).mpr fun u hu hl hs hns => ?_
  cases hpick : (pool.play P.serve ms).world.db.linked (i 0).scan sapiens with
  | none => exact absurd hs (Db.linked_eq_none hpick u hu hl)
  | some user =>
    obtain ⟨v, hv, rfl, hsv, hlv⟩ := Db.linked_eq_some hpick
    rw [huniq u hu v hv hl hlv sapiens hs hsv]

namespace Probe

def alone (j n : Nat) (t : Request) (i : Env) : List (Move portalMachine Request) :=
  .start t :: List.replicate n (.step j i)

def other : String := "second@example.com"

def creationOf (email : String) : Envelope :=
  { id := "envelope", eventType := userCreated
    payload := .object [("user_id", .str (uuid 9).display), ("email", .str email)] }

def linkedOnce : List (Move portalMachine Request) :=
  alone 0 3 (.setSignupPolicy true none none) env ++ alone 1 15 (.signup email "secret" "10.0.0.1") env ++
    alone 2 2 (.handle (creationOf email)) env

def linkedTwice : List (Move portalMachine Request) :=
  linkedOnce ++ alone 3 15 (.signup other "secret" "10.0.0.1") { env with uuid := uuid 6, nonce := 6 } ++
    alone 4 2 (.handle (creationOf other)) env

def blank : Pool portalMachine Halt Reply Request := ⟨world Db.empty, []⟩

def deletedAfter (ms : List (Move portalMachine Request)) : Except Halt Unit × World :=
  (portal.handle (lifecycle "sapiens.user.deleted")).run portalMachine (fun _ => env)
  (blank.play portal.serve ms).world

end Probe

/-- Two principals carry the link; the accepted deletion leaves one of them active. -/
theorem second_link_survives :
    (Probe.deletedAfter Probe.linkedTwice).1 = .ok () ∧
    ((Probe.deletedAfter Probe.linkedTwice).2.db.users.rows.map fun u => (u.sapiensUserId, u.status, u.live)) =
      [(some (Probe.uuid 9), .revoked, true), (some (Probe.uuid 9), .active, true)] ∧
    ¬(Probe.deletedAfter Probe.linkedTwice).2.db.LinkedRevoked (Probe.uuid 9) := by
  have hrun : (Probe.deletedAfter Probe.linkedTwice).1 = .ok () ∧
      ((Probe.deletedAfter Probe.linkedTwice).2.db.users.rows.map fun u =>
        (u.sapiensUserId, u.status, u.live)) =
        [(some (Probe.uuid 9), .revoked, true), (some (Probe.uuid 9), .active, true)] := by decide +kernel
  refine ⟨hrun.1, hrun.2, fun h => ?_⟩
  have hmem : (some (Probe.uuid 9), PortalUserStatus.active, true) ∈
      (Probe.deletedAfter Probe.linkedTwice).2.db.users.rows.map fun u =>
      (u.sapiensUserId, u.status, u.live) := by
    rw [hrun.2]
    exact List.mem_cons_of_mem _ List.mem_cons_self
  obtain ⟨u, hu, he⟩ := List.mem_map.mp hmem
  simp only [Prod.mk.injEq] at he
  cases he.2.1.symm.trans (h u hu he.2.2 he.1)

theorem gone_reaches_every_link_probe :
    (Probe.deletedAfter Probe.linkedOnce).2.db.LinkedRevoked (Probe.uuid 9) :=
  gone_reaches_every_link Probe.portal Probe.blank Probe.linkedOnce _ _ _ _ rfl
    (by decide +kernel) Probe.ending_is
    (Prod.ext (by decide +kernel) rfl)

end BackbonePortal
