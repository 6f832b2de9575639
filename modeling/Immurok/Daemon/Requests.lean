import Immurok.Daemon.Handlers

/-!
# Handlers that take part in approvals

The handlers that put an entry into the slot, and what their connection knows
when they answer. An `AUTH` is only answered with OK by a connection that is
justified in it, and a window for `sudo` is only armed by a connection whose
own request was approved.
-/

namespace Immurok

open Async Machine

variable {ext : Extern} {files : Files} {i : TaskId} {hi : i ≠ 0} {s s' : Daemon} {e : Ev}
  {α β : Type}

-- ---------------------------------------------------------------------------
-- Connections
-- ---------------------------------------------------------------------------

/-- What a connection knows, which nobody else changes. -/
def clientPart (ext : Extern) (files : Files) (hi : i ≠ 0) :
    Part (machine ext files) i ClientAux where
  of v := v.client i
  keep v e h := by
    show (v.step ext e).client i = v.client i
    rw [View.client_step hi, if_neg (show e.actor ≠ some i from h)]

/-- A triple over what a connection knows. -/
abbrev ClientTriple (ext : Extern) (files : Files) (hi : i ≠ 0) (P : ClientAux → Prop)
    (t : Code α) (Q : α → ClientAux → Prop) : Prop :=
  (clientPart ext files hi).Triple observed P t Q

variable {P : ClientAux → Prop} {Q : α → ClientAux → Prop}

theorem client_act {f : Daemon → List (α × Daemon)}
    (h : ∀ s a s', P (s.aux.client i) → (a, s') ∈ f s →
      (machine ext files).Follows observed (some i) s s' ∧ Q a (s'.aux.client i)) :
    ClientTriple ext files hi P (.act f .ret) Q :=
  .act fun s a s' _ hp hm => h s a s' hp hm

/-- An event of a connection, and what it learns from it. -/
theorem Daemon.follows_client (files : Files) (hi : i ≠ 0)
    (he : (machine ext files).Emits observed e s s') (ha : e.actor = some i) :
    (machine ext files).Follows observed (some i) s s' ∧
      s'.aux.client i = (s.aux.client i).step e := by
  refine ⟨.inr ⟨e, ha, he⟩, ?_⟩
  calc s'.aux.client i
      = (s.view.step ext e).client i := congrArg (View.client · i) he.2.2
    _ = (s.aux.client i).step e := by rw [View.client_step hi, if_pos ha]; rfl

/-- A step that is an event in every state. -/
theorem client_note {a : Daemon → α} {g : Daemon → Daemon} {ev : Daemon → Ev}
    (he : ∀ s, (ev s).actor = some i) (hv : ∀ s, (g s).view = s.view.act ext (ev s))
    (h : ∀ s : Daemon, P (s.aux.client i) →
      s.view.allowed ext (ev s) ∧ Q (a s) ((s.aux.client i).step (ev s))) :
    ClientTriple ext files hi P (.act (fun s => [(a s, (g s).note (ev s))]) .ret) Q := by
  refine client_act fun s b s' hp hm => ?_
  obtain ⟨rfl, rfl⟩ := Prod.mk.inj (List.mem_singleton.mp hm)
  obtain ⟨ha, hq⟩ := h s hp
  obtain ⟨hf, hx⟩ := Daemon.follows_client files hi (Daemon.note_emits (hv s) ha) (he s)
  exact ⟨hf, hx ▸ hq⟩

/-- What the events of a plain handler leave alone. -/
def ClientAux.Steady (P : ClientAux → Prop) : Prop := ∀ c e, e.Plain → P c → P (c.step e)

/-- A connection in the middle of a plain handler. -/
theorem Modest.keeps {t : Code α} (h : Modest ext files i t) (hP : ClientAux.Steady P) :
    ClientTriple ext files hi P t fun _ => P := by
  refine Part.keeps_of_within h.plain fun v e hk _ hp => ?_
  show P ((v.step ext e).client i)
  rw [View.client_step hi]
  split
  · exact hP _ _ hk hp
  · exact hp

/-- Plain code, where nothing is known. -/
theorem Modest.triple {t : Code α} (h : Modest ext files i t) :
    ClientTriple ext files hi P t fun _ _ => True :=
  (h.keeps (P := fun _ => True) fun _ _ _ _ => trivial).pre fun _ _ => trivial

theorem Only.leaves {t : Code α} (h : Only ext files i (fun _ => False) t) :
    ClientTriple ext files hi P t fun _ => P :=
  Part.keeps_of_within h fun _ _ hk => hk.elim

-- ---------------------------------------------------------------------------
-- What lasts
-- ---------------------------------------------------------------------------

namespace ClientAux

/-- The connection has put `entry` into the slot and not cleaned up. -/
def Holds (entry : Entry) (c : ClientAux) : Prop := c.entry = some entry ∧ c.registered = true

/-- A touch, or a match, was for this connection since it registered. -/
def Approved (c : ClientAux) : Prop := c.touched = true ∨ c.granted = true

/-- The checks an `AUTH` has made before it asks for a touch. -/
structure Admitted (ext : Extern) (user service : Str) (c : ClientAux) : Prop where
  owned : c.Owned ext user
  enabled : c.Enabled ext service
  connected : c.connected = true
  verified : c.verified = true

variable {P' : ClientAux → Prop}

theorem Steady.and (h : Steady P) (h' : Steady P') : Steady fun c => P c ∧ P' c :=
  fun c e he ⟨hp, hp'⟩ => ⟨h c e he hp, h' c e he hp'⟩

theorem Steady.imp {p : Prop} (h : Steady P) : Steady fun c => p → P c :=
  fun c e he hp hc => h c e he (hp hc)

theorem holds_steady {entry : Entry} : Steady (Holds entry) := by
  intro c e he h
  cases e with
  | queued _ _ _ | gotReply _ _ _ | replyDropped _ _ | cancelSent _ _ _ | pairingSet _ _
  | ownerSet _ _ | settingsSet _ _ | verifiedSet _ _ => exact h
  | _ => exact he.elim

theorem admitted_steady {user service : Str} : Steady (Admitted ext user service) := by
  rintro c e he ⟨ho, hs, hc, hv⟩
  cases e with
  | queued _ _ _ | gotReply _ _ _ | replyDropped _ _ | cancelSent _ _ _ | pairingSet _ _
  | ownerSet _ _ | settingsSet _ _ | verifiedSet _ _ =>
    exact ⟨ho, hs, hc, hv⟩
  | _ => exact he.elim

theorem approved_steady : Steady Approved := by
  intro c e he h
  cases e with
  | gotReply _ _ _ => exact h.imp_left fun ht => by simp [step, ht]
  | queued _ _ _ | replyDropped _ _ | cancelSent _ _ _ | pairingSet _ _
  | ownerSet _ _ | settingsSet _ _ | verifiedSet _ _ => exact h
  | _ => exact he.elim

end ClientAux

-- ---------------------------------------------------------------------------
-- The slot
-- ---------------------------------------------------------------------------

theorem trySetPendingPam_spec {entry : Entry} (hP : ∀ c, P c → P (c.step (.registered i entry))) :
    ClientTriple ext files hi P (trySetPendingPam i entry) fun b c =>
      P c ∧ (b = true → c.Holds entry) := by
  refine client_act fun s b s' hp hm => ?_
  replace hm := List.mem_singleton.mp hm
  dsimp only at hm
  split at hm
  next =>
    obtain ⟨rfl, rfl⟩ := Prod.mk.inj hm
    exact ⟨.inl .refl, hp, by simp⟩
  next hfree =>
    obtain ⟨rfl, rfl⟩ := Prod.mk.inj hm
    have hn : s.coord.pendingPam = none := by simpa using hfree
    let s₁ : Daemon := { s with
      coord := { s.coord with pendingPam := some i }
      pending := Function.update s.pending i .new }
    have hv : s₁.view = s.view.act ext (.registered i entry) := rfl
    obtain ⟨hf, hx⟩ := Daemon.follows_client files hi (Daemon.note_emits hv ⟨hi, hn⟩) rfl
    exact ⟨hf, hx ▸ hP _ hp, fun _ => hx ▸ ⟨rfl, rfl⟩⟩

theorem denyPendingPam_spec {R : ClientAux → Prop}
    (h : ∀ c entry, P c → c.registered = true ∧ R (c.step (.denied i entry))) :
    ClientTriple ext files hi P (denyPendingPam i) fun _ => R :=
  client_note (fun _ => rfl) (fun _ => rfl) fun _ hp => ⟨⟨rfl, (h _ none hp).1⟩, (h _ _ hp).2⟩

theorem dropPending_spec : ClientTriple ext files hi P (dropPending i) fun _ => P :=
  client_note (fun _ => rfl) (fun _ => rfl) fun _ hp => ⟨trivial, hp⟩

/-- A handler that borrows the slot for a placeholder. -/
theorem placeholder_spec {t : Code α} (h : Modest ext files i t) :
    ClientTriple ext files hi (ClientAux.Holds .placeholder)
      (t >>= fun result => denyPendingPam i >>= fun _ => pure result) fun _ _ => True :=
  .bind (h.keeps ClientAux.holds_steady) fun _ =>
    .bind (denyPendingPam_spec (R := fun _ => True) fun _ _ hc => ⟨hc.2, trivial⟩) fun _ =>
      .ret fun _ _ => trivial

-- ---------------------------------------------------------------------------
-- The race for a touch
-- ---------------------------------------------------------------------------

/-- What the outcome of a race for a touch says about the connection. -/
def ClientAux.Learnt (outcome : Option Reply ⊕ Ended) (c : ClientAux) : Prop :=
  match outcome with
  | .inl (some (.auth (.ok true))) | .inr (.pending true) => c.Approved
  | _ => True

theorem ClientAux.learnt_steady {outcome : Option Reply ⊕ Ended} : Steady (Learnt outcome) := by
  intro c e he h
  unfold Learnt at h ⊢
  split
  · exact approved_steady _ _ he h
  · exact approved_steady _ _ he h
  · trivial

/-- A branch of a race for a touch, which ends the race. -/
def EndsRace (ext : Extern) (files : Files) (i : TaskId) (J : ClientAux → Prop)
    (f : Daemon → Option (Option Ended × Daemon)) : Prop :=
  ∀ s b s', J (s.aux.client i) → f s = some (b, s') →
    (machine ext files).Follows observed (some i) s s' ∧ J (s'.aux.client i) ∧
      ∃ a, b = some a ∧ (s'.aux.client i).Learnt (.inr a)

/-- Where the race stands after one of its branches. -/
def AfterBranch (J : ClientAux → Prop) (c : ClientAux) : Raced Ended → Prop
  | .queued r => J c ∧ (r, .authRequest) ∈ c.requests
  | .replied reply => J c ∧ c.Learnt (.inl reply)
  | .other none => False
  | .other (some b) => J c ∧ c.Learnt (.inr b)

variable {J : ClientAux → Prop}

theorem ownBranch_spec {r : Option ReplyId} {a : Raced Ended} (hi : i ≠ 0)
    (hJ : ClientAux.Steady J) (hj : J (s.aux.client i))
    (hr : ∀ r', r = some r' → (r', .authRequest) ∈ (s.aux.client i).requests)
    (h : ownBranch i .authRequest r s = some (a, s')) :
    (machine ext files).Follows observed (some i) s s' ∧ AfterBranch J (s'.aux.client i) a := by
  cases r with
  | none =>
    obtain ⟨rfl, he⟩ := enqueueBranch_some ext files h
    obtain ⟨hf, hx⟩ := Daemon.follows_client files hi he rfl
    exact ⟨hf, hx ▸ ⟨hJ _ _ trivial hj, .head _⟩⟩
  | some r =>
    obtain ⟨reply, rfl, he⟩ | ⟨rfl, rfl⟩ := replyBranch_some ext files h
    · obtain ⟨hf, hx⟩ := Daemon.follows_client files hi he rfl
      refine ⟨hf, hx ▸ ⟨hJ _ _ trivial hj, ?_⟩⟩
      unfold ClientAux.Learnt
      split
      next heq =>
        obtain rfl := Option.some.inj (Sum.inl.inj heq)
        exact .inl (by simp [ClientAux.step, hr r rfl])
      next heq => cases heq
      next => trivial
    · exact ⟨.inl .refl, hj, trivial⟩

theorem race_spec {others : List (Daemon → Option (Option Ended × Daemon))}
    (hJ : ClientAux.Steady J) (h : ∀ f ∈ others, EndsRace ext files i J f) :
    ClientTriple ext files hi J (race i .authRequest others) fun result c =>
      J c ∧ c.Learnt result.2 := by
  refine (Part.Triple.iter (J := fun r c => J c ∧
    ∀ r', r = some r' → (r', BleCommand.authRequest) ∈ c.requests) fun r => ?_).pre
      fun c hj => ⟨hj, by simp⟩
  refine .bind (C := fun a c => AfterBranch J c a) (client_act fun s a s' ⟨hj, hr⟩ hm => ?_)
    fun next => ?_
  · obtain ho | ⟨f, hf, b, rfl, hb⟩ := race_branch hm
    · exact ownBranch_spec hi hJ hj hr ho
    · obtain ⟨hfol, hj', a, rfl, hl⟩ := h f hf s b s' hj hb
      exact ⟨hfol, hj', hl⟩
  · cases next with
    | queued r' =>
      refine .ret fun c ⟨hj, hr⟩ => ⟨hj, fun r'' h => ?_⟩
      exact Option.some.inj h ▸ hr
    | replied reply => exact .ret fun c hc => hc
    | other b =>
      cases b with
      | none => exact .ret fun c hc => hc.elim
      | some b => exact .ret fun c hc => hc

/-- The pending branch apart, a branch teaches the connection nothing. -/
theorem EndsRace.of_quiet {f : Daemon → Option (Option Ended × Daemon)}
    (h : ∀ s b s', f s = some (b, s') →
      (∃ a, b = some a ∧ ∀ b, a ≠ .pending b) ∧ s'.view = s.view) :
    EndsRace ext files i J f := by
  intro s b s' hj hf
  obtain ⟨⟨a, rfl, ha⟩, hv⟩ := h s b s' hf
  have haux : s'.aux = s.aux := congrArg View.aux hv
  refine ⟨.inl (Daemon.quiet hv), haux ▸ hj, a, rfl, ?_⟩
  unfold ClientAux.Learnt
  split
  next heq => cases heq
  next heq => exact absurd (Sum.inr.inj heq) (ha true)
  next => trivial

theorem pendingBranch_ends (hi : i ≠ 0) (hJ : ∀ c b, J c → J (c.step (.gotPending i b))) :
    EndsRace ext files i J (pendingBranch i fun b => some (.pending b)) := by
  intro s b s' hj h
  obtain ⟨got, hrecv, h⟩ := Option.map_eq_some_iff.mp h
  obtain ⟨rfl, rfl⟩ := Prod.mk.inj h
  have ha : s.view.allowed ext (.gotPending i (got.getD false)) := by
    intro hb
    cases got with
    | none => cases hb
    | some b =>
      obtain rfl : b = true := hb
      exact Oneshot.recv_some hrecv
  obtain ⟨hf, hx⟩ := Daemon.follows_client files hi (Daemon.note_emits rfl ha) rfl
  refine ⟨hf, hx ▸ hJ _ _ hj, _, rfl, ?_⟩
  unfold ClientAux.Learnt
  split
  next heq => cases heq
  next heq =>
    have hb : got.getD false = true := by simpa using heq
    exact .inr (by rw [hx]; simp [ClientAux.step, hb])
  next => trivial

theorem dialogBranch_ends {showing : Bool} {subscribed : Nat} :
    EndsRace ext files i J (dialogBranch showing subscribed) := by
  refine .of_quiet fun s b s' h => ?_
  unfold dialogBranch uiCancelBranch at h
  split at h
  · split at h
    · obtain ⟨rfl, rfl⟩ := Prod.mk.inj (Option.some.inj h)
      exact ⟨⟨_, rfl, by simp⟩, rfl⟩
    · cases h
  · cases h

theorem probeBranch_ends {j : TaskId} :
    EndsRace ext files i J (probeBranch j fun data => some (.socket data)) := by
  refine .of_quiet fun s b s' h => ⟨?_, (probeBranch_hidden h).view⟩
  unfold probeBranch at h
  split at h
  · obtain ⟨rfl, -⟩ := Prod.mk.inj (Option.some.inj h)
    exact ⟨_, rfl, by simp⟩
  · split at h
    · obtain ⟨rfl, -⟩ := Prod.mk.inj (Option.some.inj h)
      exact ⟨_, rfl, by simp⟩
    · cases h

theorem deadlineBranch_ends {t : Nat} :
    EndsRace ext files i J (deadlineBranch t (some .timeout)) := by
  refine .of_quiet fun s b s' h => ?_
  unfold deadlineBranch at h
  split at h
  · obtain ⟨rfl, rfl⟩ := Prod.mk.inj (Option.some.inj h)
    exact ⟨⟨_, rfl, by simp⟩, rfl⟩
  · cases h

theorem raceRequest_spec {others : List (Daemon → Option (Option Ended × Daemon))}
    (hJ : ClientAux.Steady J) (h : ∀ f ∈ others, EndsRace ext files i J f) :
    ClientTriple ext files hi J (raceRequest i .authRequest others) fun result c =>
      J c ∧ c.Learnt result.2 :=
  .bind (race_spec hJ h) fun _ =>
    .bind ((dropLoser_modest).keeps (hJ.and ClientAux.learnt_steady)) fun _ => .ret fun _ => id

theorem Reply.eq_of_toAuth {reply : Option Reply} {b : Bool} (h : toAuth reply = .ok b) :
    reply = some (.auth (.ok b)) := by
  unfold toAuth at h
  split at h
  · rw [h]
  · cases h

theorem settleTouch_spec {request : Option ReplyId} {outcome : Option Reply ⊕ Ended}
    (hJ : ClientAux.Steady J) :
    ClientTriple ext files hi (fun c => J c ∧ c.Learnt outcome) (settleTouch i request outcome)
      fun approved c => J c ∧ (approved = true → c.Approved) := by
  unfold settleTouch
  split
  next reply =>
    refine .ret fun c ⟨hj, hl⟩ => ⟨hj, fun hb => ?_⟩
    have hr : reply = some (.auth (.ok true)) := by
      split at hb
      next heq => exact Reply.eq_of_toAuth heq
      next => cases hb
    subst hr
    exact hl
  next b =>
    refine .ret fun c ⟨hj, hl⟩ => ⟨hj, fun hb => ?_⟩
    subst hb
    exact hl
  next =>
    exact .bind (((notifyCancel_modest).keeps hJ).pre fun _ hc => hc.1) fun _ =>
      .ret fun c hj => ⟨hj, by simp⟩

theorem dismiss_modest {showing : Bool} : Modest ext files i (dismiss showing) :=
  .when (.bind pushUi_modest fun _ => .ret)

/-- From the end of a race for a touch to the answer. -/
theorem finishTouch_spec {R : ClientAux → Prop} {request : Option ReplyId}
    {outcome : Option Reply ⊕ Ended} {showing : Bool} {k : Bool → α} (hJ : ClientAux.Steady J)
    (hd : ∀ c entry, J c → c.registered = true ∧ R (c.step (.denied i entry))) :
    ClientTriple ext files hi (fun c => J c ∧ c.Learnt outcome)
      (do
        dropPending i
        let approved ← settleTouch i request outcome
        dismiss showing
        denyPendingPam i
        pure (k approved))
      fun a c => R c ∧ ∃ b, a = k b ∧ (b = true → c.Approved) := by
  refine .bind dropPending_spec fun _ => .bind (settleTouch_spec hJ) fun approved => ?_
  refine .bind ((dismiss_modest).keeps (hJ.and ClientAux.approved_steady.imp)) fun _ => ?_
  refine .bind (denyPendingPam_spec (R := fun c => R c ∧ (approved = true → c.Approved))
    fun c entry ⟨hj, ha⟩ => ?_) fun _ => .ret fun c ⟨hr, ha⟩ => ⟨hr, approved, rfl, ha⟩
  obtain ⟨hreg, hr⟩ := hd c entry hj
  exact ⟨hreg, hr, ha⟩

-- ---------------------------------------------------------------------------
-- AUTH
-- ---------------------------------------------------------------------------

variable {user service : Str}

/-- An OK is justified. -/
def ClientAux.Answers (ext : Extern) (user service : Str) (response : Response)
    (c : ClientAux) : Prop :=
  ∀ m, response = .ok m → c.Justified ext user service

theorem ClientAux.Answers.deny {m : Str} {c : ClientAux} :
    c.Answers ext user service (.deny m) := fun _ h => by cases h

theorem ClientAux.Answers.error {m : Str} {c : ClientAux} :
    c.Answers ext user service (.error m) := fun _ h => by cases h

theorem showDialog_modest {graphical : Bool} : Modest ext files i (showDialog graphical) :=
  .ite pushUi_modest .ret

theorem raceAuth_spec {showing : Bool} {subscribed : Nat} :
    ClientTriple ext files hi
      (fun c => c.Admitted ext user service ∧ c.Holds .auth)
      (raceAuth i showing subscribed)
      fun approved c => (c.Admitted ext user service ∧ c.entry = some .auth) ∧
        (approved = true → c.Approved) := by
  have hJ : ClientAux.Steady fun c => c.Admitted ext user service ∧ c.Holds .auth :=
    ClientAux.admitted_steady.and ClientAux.holds_steady
  refine .bind (raceRequest_spec hJ ?_) fun (request, outcome) => ?_
  · simp only [List.forall_mem_cons, List.not_mem_nil, false_imp_iff, implies_true, and_true]
    refine ⟨pendingBranch_ends hi ?_, dialogBranch_ends, probeBranch_ends⟩
    rintro c b ⟨⟨ho, hs, hc, hv⟩, hh⟩
    exact ⟨⟨ho, hs, hc, hv⟩, hh⟩
  · refine (finishTouch_spec (k := id)
      (R := fun c => c.Admitted ext user service ∧ c.entry = some .auth) hJ ?_).post ?_
    · rintro c entry ⟨⟨ho, hs, hc, hv⟩, he, hreg⟩
      exact ⟨hreg, ⟨ho, hs, hc, hv⟩, he⟩
    · rintro _ c ⟨hr, b, rfl, hb⟩
      exact ⟨hr, hb⟩

theorem authTouch_spec :
    ClientTriple ext files hi (fun c => c.Admitted ext user service) (authTouch ext i service)
      fun response => ClientAux.Answers ext user service response := by
  have hs : ClientAux.Steady (ClientAux.Admitted ext user service) := ClientAux.admitted_steady
  refine .bind (load_only).leaves fun subscribed => ?_
  refine .bind ((showDialog_modest).keeps hs) fun showing => ?_
  refine .bind (trySetPendingPam_spec fun c ⟨ho, hs, hc, hv⟩ => ⟨ho, hs, hc, hv⟩)
    fun registered => ?_
  cases registered with
  | false =>
    exact .bind (((dismiss_modest).keeps hs).pre fun _ hc => hc.1) fun _ =>
      .ret fun _ _ => .error
  | true =>
    refine .bind ((raceAuth_spec).pre fun c hc => ⟨hc.1, hc.2 rfl⟩) fun approved => .ret ?_
    rintro c ⟨⟨hadm, he⟩, happ⟩
    cases approved with
    | false => exact .deny
    | true =>
      exact fun m _ => ⟨hadm.owned, hadm.enabled,
        .inr ⟨hadm.connected, hadm.verified, he, happ rfl⟩⟩

theorem authDevice_spec :
    ClientTriple ext files hi (fun c => c.Owned ext user ∧ c.Enabled ext service)
      (authDevice ext i service)
      fun response => ClientAux.Answers ext user service response := by
  refine .bind (C := fun connected c =>
      (c.Owned ext user ∧ c.Enabled ext service) ∧ c.connected = connected)
    (client_note (fun _ => rfl) (fun _ => rfl) fun s hp => ⟨rfl, hp, rfl⟩) fun connected => ?_
  cases connected with
  | false => exact .ret fun _ _ => .deny
  | true =>
    refine .bind (C := fun verified c =>
        ((c.Owned ext user ∧ c.Enabled ext service) ∧ c.connected = true) ∧ c.verified = verified)
      (client_note (fun _ => rfl) (fun _ => rfl) fun s hp => ⟨rfl, hp, rfl⟩) fun verified => ?_
    cases verified with
    | false => exact .ret fun _ _ => .deny
    | true => exact (authTouch_spec).pre fun c ⟨⟨⟨ho, hs⟩, hc⟩, hv⟩ => ⟨ho, hs, hc, hv⟩

theorem authWindow_spec :
    ClientTriple ext files hi (fun c => c.Owned ext user ∧ c.Enabled ext service)
      (authWindow ext i service)
      fun response => ClientAux.Answers ext user service response := by
  refine .bind (C := fun hit c => (c.Owned ext user ∧ c.Enabled ext service) ∧
      (hit = true → ∃ t, c.window = some (service, t, true)))
    (client_note (fun _ => rfl) (fun _ => rfl) fun s hp => ⟨⟨rfl, rfl⟩, hp, fun hit => ?_⟩) fun hit => ?_
  · exact ⟨s.now, by simp [ClientAux.step, hit]⟩
  · cases hit with
    | false => exact (authDevice_spec).pre fun c hc => hc.1
    | true => exact .ret fun c ⟨⟨ho, hs⟩, hw⟩ m _ => ⟨ho, hs, .inl (hw rfl)⟩

theorem authService_spec :
    ClientTriple ext files hi (ClientAux.Owned ext user) (authService ext i service)
      fun response => ClientAux.Answers ext user service response := by
  refine .bind (C := fun settings c => c.Owned ext user ∧ c.settings = some settings)
    (client_note (fun _ => rfl) (fun _ => rfl) fun s hp => ⟨rfl, hp, rfl⟩) fun settings => ?_
  cases hallowed : isServiceAllowed ext settings service with
  | false => simpa [hallowed] using Part.Triple.ret fun _ _ => .deny
  | true =>
    simpa [hallowed] using
      (authWindow_spec).pre fun c ⟨ho, hs⟩ => ⟨ho, settings, hs, hallowed⟩

theorem handleAuth_spec :
    ClientTriple ext files hi (fun _ => True) (handleAuth ext i user service)
      fun response => ClientAux.Answers ext user service response := by
  refine .bind (C := fun owner c => c.owner = some owner)
    (client_note (fun _ => rfl) (fun _ => rfl) fun s hp => ⟨rfl, rfl⟩) fun owner => ?_
  cases hother : owner.any fun uid => ext.uidOfUser user ≠ some uid with
  | true => simpa [hother] using Part.Triple.ret fun _ _ => .deny
  | false =>
    simp only [Bool.false_eq_true, if_false]
    refine (authService_spec).pre fun c ho => ⟨owner, ho, ?_⟩
    rintro uid rfl
    simpa using hother

-- ---------------------------------------------------------------------------
-- AGENT_APPROVE
-- ---------------------------------------------------------------------------

theorem raceAgent_spec {showing : Bool} {subscribed : Nat} :
    ClientTriple ext files hi (ClientAux.Holds .agent) (raceAgent i showing subscribed)
      fun result c => c.entry = some .agent ∧ (result.1 = true → c.Approved) := by
  refine .bind (clock_only).leaves fun now => ?_
  refine .bind (raceRequest_spec ClientAux.holds_steady ?_) fun (request, outcome) => ?_
  · simp only [List.forall_mem_cons, List.not_mem_nil, false_imp_iff, implies_true, and_true]
    exact ⟨pendingBranch_ends hi fun _ _ => id, probeBranch_ends, dialogBranch_ends,
      deadlineBranch_ends⟩
  · refine (finishTouch_spec (k := fun approved => (approved, isProtocolError outcome))
      (R := fun c => c.entry = some .agent) ClientAux.holds_steady fun c entry hc => ?_).post ?_
    · exact ⟨hc.2, hc.1⟩
    · rintro _ c ⟨he, b, rfl, hb⟩
      exact ⟨he, hb⟩

theorem setPreAuth_agent_spec :
    ClientTriple ext files hi (fun c => c.entry = some .agent ∧ c.Approved)
      (setPreAuth ext i (fun _ => .agent i) (secs 10) sudoServices) fun _ _ => True :=
  .bind (clock_only).leaves fun _ => client_note (fun _ => rfl) (fun _ => rfl) fun _ ⟨he, ha⟩ =>
    ⟨⟨rfl, rfl, rfl, he, ha⟩, trivial⟩

theorem answerAgent_spec {approved protocolError : Bool} :
    ClientTriple ext files hi (fun c => c.entry = some .agent ∧ (approved = true → c.Approved))
      (answerAgent ext i approved protocolError) fun _ _ => True := by
  unfold answerAgent
  split
  · exact .ret fun _ _ => trivial
  · split
    next happ =>
      exact .bind ((setPreAuth_agent_spec).pre fun c hc => ⟨hc.1, hc.2 happ⟩) fun _ =>
        .ret fun _ _ => trivial
    next => exact .ret fun _ _ => trivial

theorem agentTouch_spec {cmd : Str} :
    ClientTriple ext files hi (fun _ => True) (agentTouch ext i cmd) fun _ _ => True := by
  refine .bind (trySetPendingPam_spec fun _ => id) fun registered => ?_
  cases registered with
  | false => exact .ret fun _ _ => trivial
  | true =>
    refine .bind ((load_only).leaves.pre fun c hc => hc.2 rfl) fun subscribed => ?_
    refine .bind ((pushUi_modest).keeps ClientAux.holds_steady) fun showing => ?_
    exact .bind raceAgent_spec fun _ => answerAgent_spec

theorem loadConnected_spec :
    ClientTriple ext files hi (fun _ => True) (loadConnected i) fun _ _ => True :=
  client_note (fun _ => rfl) (fun _ => rfl) fun _ _ => ⟨rfl, trivial⟩

theorem loadVerified_spec :
    ClientTriple ext files hi (fun _ => True) (loadVerified i) fun _ _ => True :=
  client_note (fun _ => rfl) (fun _ => rfl) fun _ _ => ⟨rfl, trivial⟩

theorem handleAgentApprove_spec {cmd : Str} :
    ClientTriple ext files hi (fun _ => True) (handleAgentApprove ext i cmd) fun _ _ => True := by
  refine .ite (.ret fun _ => id) (.bind loadConnected_spec fun _ => .ite (.ret fun _ => id) ?_)
  exact .bind loadVerified_spec fun _ => .ite (.ret fun _ => id) agentTouch_spec

-- ---------------------------------------------------------------------------
-- Placeholders
-- ---------------------------------------------------------------------------

theorem otpWithSlot_spec {idx : UInt8} {busy : Str} :
    ClientTriple ext files hi (fun _ => True) (otpWithSlot i idx busy) fun _ _ => True := by
  refine .bind (trySetPendingPam_spec fun _ => id) fun registered => ?_
  cases registered with
  | false => exact .ret fun _ _ => trivial
  | true => exact (placeholder_spec otpGetInner_modest).pre fun c hc => hc.2 rfl

theorem handleGetOtp_spec {name : Str} :
    ClientTriple ext files hi (fun _ => True) (handleGetOtp i name) fun _ _ => True := by
  refine .bind (findKeyIndex_modest).triple fun idx => ?_
  cases idx with
  | none => exact .ret fun _ => id
  | some idx => exact otpWithSlot_spec

theorem handleGetApi_spec {name : Str} :
    ClientTriple ext files hi (fun _ => True) (handleGetApi i name) fun _ _ => True := by
  refine .bind (findKeyIndex_modest).triple fun idx => ?_
  cases idx with
  | none => exact .ret fun _ => id
  | some idx =>
    refine .bind (trySetPendingPam_spec fun _ => id) fun registered => ?_
    cases registered with
    | false => exact .ret fun _ _ => trivial
    | true =>
      refine .bind ((placeholder_spec bleSendFpGated_modest).pre fun c hc => hc.2 rfl)
        fun answer => ?_
      cases answer with
      | ok _ => exact .ite (readApiEntry_modest).triple (.ret fun _ => id)
      | error _ => exact .ret fun _ => id

theorem handleGetKey_spec {after : Str} :
    ClientTriple ext files hi (fun _ => True) (handleGetKey ext i after) fun _ _ => True := by
  unfold handleGetKey
  split
  · exact .ret fun _ => id
  · exact .ret fun _ => id
  · exact .bind (load_only).leaves fun _ => .ite (.ret fun _ => id) <|
      .ite (handleGetSsh_modest).triple <| .ite handleGetApi_spec <| .ite handleGetOtp_spec <|
        .ret fun _ => id

theorem otpCommand_spec {idx : Str} :
    ClientTriple ext files hi (fun _ => True) (otpCommand i idx) fun _ _ => True := by
  unfold otpCommand
  split
  · exact .ret fun _ => id
  · exact .bind otpWithSlot_spec fun _ => .ret fun _ => id

theorem keyOnDevice_spec {parts : List Str} :
    ClientTriple ext files hi (fun _ => True) (keyOnDevice i parts) fun _ _ => True := by
  unfold keyOnDevice
  split
  · exact .ite (generateKey_modest).triple <| .ite (importKey_modest).triple <|
      .ite (importKey_modest).triple <| .ite otpCommand_spec <| .ite (importKey_modest).triple <|
        .ret fun _ => id
  · exact .ite (generateKey_modest).triple <| .ite (deleteKey_modest).triple <|
      .ite (importKey_modest).triple <| .ite (importKey_modest).triple <| .ite otpCommand_spec <|
        .ite (importKey_modest).triple <| .ret fun _ => id
  · exact .ret fun _ => id

theorem handleKeyCommand_spec {line : Str} :
    ClientTriple ext files hi (fun _ => True) (handleKeyCommand ext i line) fun _ _ => True :=
  .ite (.ret fun _ => id) <| .ite (keyCacheJson_modest).triple <| .bind (load_only).leaves fun _ =>
    .ite (.ret fun _ => id) <| .bind (load_only).leaves fun _ =>
      .ite (.ret fun _ => id) keyOnDevice_spec

-- ---------------------------------------------------------------------------
-- Requests
-- ---------------------------------------------------------------------------

/-- The answer to a request, where it is an approval, is justified. -/
def Request.Justified (ext : Extern) (request : Request) (response : Response)
    (c : ClientAux) : Prop :=
  ∀ user service, request = .auth user service → c.Answers ext user service response

theorem runRequest_spec {peer : Peer} {request : Request} :
    ClientTriple ext files hi (fun _ => True) (runRequest ext i peer request)
      fun response => request.Justified ext response := by
  have plain {t : Code Response} (h : Modest ext files i t)
      (hr : ∀ user service, request ≠ .auth user service) :
      ClientTriple ext files hi (fun _ => True) t fun response =>
        request.Justified ext response :=
    h.triple.post fun _ _ _ user service he => absurd he (hr user service)
  cases request with
  | auth user service =>
    exact (handleAuth_spec).post fun response c h user' service' he => by cases he; exact h
  | status => exact plain handleStatus_modest (by simp)
  | fpList => exact plain handleFpList_modest (by simp)
  | fpEnroll _ => exact plain handleFpEnroll_modest (by simp)
  | fpEnrollCancel => exact plain handleFpEnrollCancel_modest (by simp)
  | fpDelete _ => exact plain handleFpDelete_modest (by simp)
  | fpVerify => exact plain handleFpVerify_modest (by simp)
  | fpStatus => exact plain handleFpStatus_modest (by simp)
  | gateCancel => exact plain handleGateCancel_modest (by simp)
  | pairStatus => exact plain (.bind load_modest fun _ => .ret) (by simp)
  | pairStart => exact plain pairStart_modest (by simp)
  | pairProgress => exact plain (.bind load_modest fun _ => .ret) (by simp)
  | slotStatus => exact plain handleSlotStatus_modest (by simp)
  | slotClear _ => exact plain handleSlotClear_modest (by simp)
  | factoryReset => exact plain handleFactoryReset_modest (by simp)
  | setUnlockSudo _ | setUnlockPolkit _ | setUnlockScreen _ | setLockScreen _ =>
    dsimp only [runRequest]
    exact plain handleSetSetting_modest (by simp)
  | setSshTakeover _ => exact plain handleSetSshTakeover_modest (by simp)
  | getSettings => exact plain handleGetSettings_modest (by simp)
  | getInfo => exact plain handleGetInfo_modest (by simp)
  | fpLastMatch | otaStart _ _ | otaData _ | otaFinish => exact plain .ret (by simp)

theorem dispatchRequest_spec {peer : Peer} {request : Request} :
    ClientTriple ext files hi (fun _ => True) (dispatchRequest ext i peer request)
      fun _ _ => True := by
  refine .bind runRequest_spec fun response => .bind (C := fun _ _ => True)
    (client_note (g := id) (fun _ => rfl) (fun _ => rfl) fun s hj => ⟨?_, trivial⟩) fun _ =>
      .ret fun _ => id
  cases request with
  | auth user service =>
    cases response with
    | ok m => exact hj user service rfl m rfl
    | _ => trivial
  | _ => trivial

theorem serveDispatch_spec {peer : Peer} {line : Str} {d : Dispatch} :
    ClientTriple ext files hi (fun _ => True) (serveDispatch ext i peer line d)
      fun _ _ => True := by
  cases d with
  | sessionAgent => exact (serveSessionAgent_modest).triple
  | logStream => exact (serveLogStream_modest).triple
  | ota => exact (handleOtaSession_modest).triple
  | key => exact .bind handleKeyCommand_spec fun _ => (writeLineTo_modest).triple
  | agentApprove cmd => exact .bind handleAgentApprove_spec fun _ => (writeLineTo_modest).triple
  | list cat => exact .bind (handleListKeys_modest).triple fun _ => (writeBytes_modest).triple
  | get after => exact .bind handleGetKey_spec fun _ => (writeBytes_modest).triple
  | request r => exact .bind dispatchRequest_spec fun _ => (writeLineTo_modest).triple
  | unparsable e => exact (writeBytes_modest).triple

theorem authorize_modest {tier : Tier} {uid : Nat} :
    Modest ext files i (authorize ext tier uid) := by
  refine .ite .ret ?_
  cases tier with
  | anyone => exact .ret
  | auth => exact .ret
  | manage =>
    refine .bind uidIsActive_modest fun active => ?_
    cases active with
    | some _ => exact .ret
    | none => exact .bind get_modest fun _ => .ret

theorem serveLine_spec {peer : Peer} {line : Str} :
    ClientTriple ext files hi (fun _ => True) (serveLine ext i peer line) fun _ _ => True :=
  .bind (authorize_modest).triple fun _ => .ite (writeLineTo_modest).triple serveDispatch_spec

theorem handleClient_spec {peer : Peer} :
    ClientTriple ext files hi (fun _ => True) (handleClient ext i peer) fun _ _ => True := by
  refine .bind (clock_only).leaves fun now => .bind (readUntil_modest).triple fun read => ?_
  split
  · unfold serveChunk
    split
    · exact (writeLineTo_modest).triple
    · exact serveLine_spec
  · exact .ret fun _ => id

theorem serveConn_spec {conn : Conn} :
    ClientTriple ext files hi (fun _ => True) (serveConn ext i conn) fun _ _ => True := by
  unfold serveConn
  split
  · exact handleClient_spec
  · exact (handleAgentClient_modest).triple
  · exact .ret fun _ => id
  · exact .ret fun _ => id

end Immurok
