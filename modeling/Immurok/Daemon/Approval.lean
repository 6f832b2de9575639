import Immurok.Async.History
import Immurok.Daemon.Sound

/-!
# What an approval takes

An `AUTH` is answered with OK on an open window, on the request's own touch or
on a signed match that its own entry was resolved with, and on nothing else.
What a connection knows when it answers is traced back to what has happened.
-/

namespace Immurok

open Async Machine

variable {ext : Extern} {files : Files} {v : View} {e : Ev} {es l : List Ev} {i : TaskId}
  {ok : View → Ev → Prop} {c : Config Daemon}

/-- The events since connection `i` last registered. -/
abbrev sinceEntry (i : TaskId) (l : List Ev) : List Ev := since (Ev.registers i) l

/-- An `AuthRequest` that connection `i` has queued since it registered
returned true. -/
def OwnTouch (i : TaskId) (l : List Ev) : Prop :=
  ∃ r, .queued i r .authRequest ∈ sinceEntry i l ∧
    .replied r (.auth (.ok true)) ∈ sinceEntry i l

/-- The entry of connection `i` was resolved with true since it registered. -/
def OwnEntry (i : TaskId) (l : List Ev) : Prop := ∃ f, .approved i f true ∈ sinceEntry i l

/-- `f` is a signed match whose HMAC is right under the key of the pairing. -/
def Verified (ext : Extern) (files : Files) (f : Frame) (l : List Ev) : Prop :=
  ∃ key, (machine ext files).Saw l (.pairingRead (some key)) (·.key = some key) ∧
    f.isMatch = true ∧ verifyFpMatchSigned ext key f = true

/-- What the history of an OK to `AUTH:user:service` on connection `i` shows. -/
structure Authorized (ext : Extern) (files : Files) (i : TaskId) (user service : Str)
    (l : List Ev) : Prop where
  owner : ∃ owner, (machine ext files).Saw l (.ownerRead i owner) (·.owner = owner) ∧
    ∀ uid, owner = some uid → ext.uidOfUser user = some uid
  enabled : ∃ settings, (machine ext files).Saw l (.settingsRead i settings)
    (·.settings = settings) ∧ isServiceAllowed ext settings service = true
  touch : (∃ t, (machine ext files).Saw l (.windowRead i service t true) fun v =>
      v.now = t ∧ ∃ p, v.preAuth = some p ∧ p.grants ext t service = true) ∨
    (machine ext files).Saw l (.connectedRead i true) (·.connected = true) ∧
      (machine ext files).Saw l (.verifiedRead i true) (·.verified = true) ∧
      (∃ l', l = sinceEntry i l ++ .registered i .auth :: l') ∧
      (OwnTouch i l ∨
        ∃ f, .approved i f true ∈ sinceEntry i l ∧ Verified ext files f l)

-- ---------------------------------------------------------------------------
-- Channels
-- ---------------------------------------------------------------------------

/-- What the channels hold was sent since they were made. -/
structure View.Sent (v : View) (es : List Ev) : Prop where
  reply : ∀ r reply, (v.replies r).value = some reply →
    .replied r reply ∈ since (Ev.queues r) es
  pending : ∀ i, (v.pending i).value = some true → OwnEntry i es

theorem OwnEntry.cons (h : OwnEntry i es) (he : e.registers i = false) : OwnEntry i (e :: es) := by
  obtain ⟨f, hf⟩ := h
  exact ⟨f, mem_since_cons he hf⟩

/-- An entry holds what it held or what the slot was told. -/
theorem resolveEntry_value {slot : Option TaskId} {pending : TaskId → Oneshot Bool} {b b' : Bool}
    (h : (resolveEntry slot pending b i).value = some b') :
    (pending i).value = some b' ∨ b' = b ∧ slot = some i ∧ (pending i).isOpen = true := by
  cases slot with
  | none => exact .inl h
  | some j =>
    by_cases hj : i = j
    · subst hj
      obtain ⟨rfl, ho⟩ | h := Oneshot.send_value (by simpa [resolveEntry] using h)
      · exact .inr ⟨rfl, rfl, ho⟩
      · exact .inl h
    · exact .inl (by simpa [resolveEntry, Function.update_of_ne hj] using h)

theorem View.Sent.step (h : v.Sent es) (ha : v.allowed ext e) : (v.step ext e).Sent (e :: es) := by
  obtain ⟨hr, hp⟩ := h
  have replies (hr' : (v.act ext e).replies = v.replies) (hq : ∀ r, e.queues r = false) :
      ∀ r reply, ((v.act ext e).replies r).value = some reply →
        .replied r reply ∈ since (Ev.queues r) (e :: es) := fun r reply h =>
    mem_since_cons (hq r) (hr r reply (hr' ▸ h))
  have pending (hp' : (v.act ext e).pending = v.pending) (hg : ∀ i, e.registers i = false) :
      ∀ i, ((v.act ext e).pending i).value = some true → OwnEntry i (e :: es) := fun i h =>
    (hp i (hp' ▸ h)).cons (hg i)
  cases e with
  | queued i r cmd =>
    refine ⟨fun r' reply h => ?_, pending rfl fun _ => rfl⟩
    by_cases hrr : r' = r
    · subst hrr
      simp [act] at h
    · refine mem_since_cons (by simp [Ev.queues, Ne.symm hrr]) (hr r' reply ?_)
      simpa [act, Function.update_of_ne hrr] using h
  | replyDropped i r =>
    refine ⟨fun r' reply h => ?_, pending rfl fun _ => rfl⟩
    by_cases hrr : r' = r
    · subst hrr
      simp [act] at h
    · exact mem_since_cons rfl (hr r' reply (by simpa [act, Function.update_of_ne hrr] using h))
  | replied r reply =>
    refine ⟨fun r' reply' h => ?_, pending rfl fun _ => rfl⟩
    by_cases hrr : r' = r
    · subst hrr
      obtain ⟨rfl, -⟩ | h := Oneshot.send_value (by simpa [act] using h)
      · exact mem_since_head rfl
      · exact mem_since_cons rfl (hr r' reply' h)
    · exact mem_since_cons rfl (hr r' reply' (by simpa [act, Function.update_of_ne hrr] using h))
  | registered i entry =>
    refine ⟨replies rfl fun _ => rfl, fun i' h => ?_⟩
    by_cases hi : i' = i
    · subst hi
      simp [act] at h
    · refine (hp i' ?_).cons (by simp [Ev.registers, Ne.symm hi])
      simpa [act, Function.update_of_ne hi] using h
  | pendingDropped i =>
    refine ⟨replies rfl fun _ => rfl, fun i' h => ?_⟩
    by_cases hi : i' = i
    · subst hi
      simp [act] at h
    · exact (hp i' (by simpa [act, Function.update_of_ne hi] using h)).cons rfl
  | denied i entry =>
    refine ⟨replies rfl fun _ => rfl, fun i' h => ?_⟩
    obtain h | ⟨hb, -⟩ := resolveEntry_value h
    · exact (hp i' h).cons rfl
    · cases hb
  | approved i f waiting =>
    refine ⟨replies rfl fun _ => rfl, fun i' h => ?_⟩
    obtain h | ⟨-, hs, ho⟩ := resolveEntry_value h
    · exact (hp i' h).cons rfl
    · obtain ⟨hs', -, rfl⟩ := ha
      obtain rfl : i' = i := Option.some.inj (hs.symm.trans hs')
      exact ⟨f, ho ▸ mem_since_head rfl⟩
  | delivered d _ _ =>
    exact ⟨replies (by cases d <;> rfl) fun _ => rfl, pending (by cases d <;> rfl) fun _ => rfl⟩
  | _ => exact ⟨replies rfl fun _ => rfl, pending rfl fun _ => rfl⟩

theorem View.sent (h : (machine ext files).Trace ok es v) : v.Sent es :=
  h.invariant (I := fun es v => v.Sent es)
    ⟨(fun _ _ h => nomatch h), (fun _ h => nomatch h)⟩ fun _ _ _ hs ha _ => hs.step ha

-- ---------------------------------------------------------------------------
-- Matches
-- ---------------------------------------------------------------------------

/-- What the worker knows of the match it routes. -/
structure View.Checked (ext : Extern) (files : Files) (v : View) (es : List Ev) : Prop where
  readKey : ∀ key, v.worker.readKey = some key →
    (machine ext files).Saw es (.pairingRead (some key)) (·.key = some key)
  matched : ∀ f, v.worker.matched = some f → Verified ext files f es

theorem Verified.cons {f : Frame} (h : Verified ext files f es) : Verified ext files f (e :: es) := by
  obtain ⟨key, hk, hm⟩ := h
  exact ⟨key, hk.cons, hm⟩

theorem View.Checked.step (h : v.Checked ext files es) (ha : v.allowed ext e)
    (hv : v = (machine ext files).replay es) : (v.step ext e).Checked ext files (e :: es) := by
  obtain ⟨hk, hm⟩ := h
  have hk' : ∀ key, v.worker.readKey = some key →
      (machine ext files).Saw (e :: es) (.pairingRead (some key)) (·.key = some key) :=
    fun key h => (hk key h).cons
  have hm' : ∀ f, v.worker.matched = some f → Verified ext files f (e :: es) :=
    fun f h => (hm f h).cons
  cases e with
  | routed f => exact ⟨by simp [WorkerAux.step, Ev.actor], by simp [WorkerAux.step, Ev.actor]⟩
  | pairingRead key =>
    refine ⟨fun key' h => ?_, by simpa [WorkerAux.step, Ev.actor] using hm'⟩
    obtain rfl : key = some key' := by simpa [WorkerAux.step, Ev.actor] using h
    exact .head (hv ▸ ha.1.symm)
  | matchVerified key f =>
    refine ⟨by simpa [WorkerAux.step, Ev.actor] using hk', fun f' h => ?_⟩
    obtain rfl : f = f' := by simpa [WorkerAux.step, Ev.actor] using h
    exact ⟨key, hk' key ha.2.1, ha.2.2⟩
  | _ =>
    exact ⟨by simpa [WorkerAux.step, Ev.actor] using hk',
      by simpa [WorkerAux.step, Ev.actor] using hm'⟩

theorem View.checked (h : (machine ext files).Trace ok es v) : v.Checked ext files es := by
  have h' : v = (machine ext files).replay es ∧ v.Checked ext files es := by
    refine h.invariant (I := fun es v => v = (machine ext files).replay es ∧
      v.Checked ext files es) ⟨rfl, (fun _ h => nomatch h), (fun _ h => nomatch h)⟩ ?_
    rintro es v e ⟨hv, hc⟩ ha -
    exact ⟨by rw [replay, ← hv], hc.step ha hv⟩
  exact h'.2

-- ---------------------------------------------------------------------------
-- Connections
-- ---------------------------------------------------------------------------

/-- What connection `i` knows has happened. -/
structure ClientAux.Recalls (ext : Extern) (files : Files) (i : TaskId) (es : List Ev)
    (c : ClientAux) : Prop where
  owner : ∀ owner, c.owner = some owner →
    (machine ext files).Saw es (.ownerRead i owner) (·.owner = owner)
  settings : ∀ settings, c.settings = some settings →
    (machine ext files).Saw es (.settingsRead i settings) (·.settings = settings)
  window : ∀ service t, c.window = some (service, t, true) →
    (machine ext files).Saw es (.windowRead i service t true) fun v =>
      v.now = t ∧ ∃ p, v.preAuth = some p ∧ p.grants ext t service = true
  connected : c.connected = true →
    (machine ext files).Saw es (.connectedRead i true) (·.connected = true)
  verified : c.verified = true →
    (machine ext files).Saw es (.verifiedRead i true) (·.verified = true)
  entry : ∀ entry, c.entry = some entry → ∃ l, es = sinceEntry i es ++ .registered i entry :: l
  requests : ∀ r cmd, (r, cmd) ∈ c.requests → .queued i r cmd ∈ sinceEntry i es
  touched : c.touched = true → OwnTouch i es
  granted : c.granted = true → OwnEntry i es

theorem OwnTouch.cons (h : OwnTouch i es) (he : e.registers i = false) : OwnTouch i (e :: es) := by
  obtain ⟨r, hq, hr⟩ := h
  exact ⟨r, mem_since_cons he hq, mem_since_cons he hr⟩

theorem ClientAux.Recalls.cons {c : ClientAux} (h : c.Recalls ext files i es)
    (he : e.registers i = false) : c.Recalls ext files i (e :: es) where
  owner o ho := (h.owner o ho).cons
  settings s hs := (h.settings s hs).cons
  window s t hw := (h.window s t hw).cons
  connected hc := (h.connected hc).cons
  verified hv := (h.verified hv).cons
  entry x hx := by
    obtain ⟨l, hl⟩ := h.entry x hx
    refine ⟨l, ?_⟩
    rw [sinceEntry, since_cons he, List.cons_append, ← hl]
  requests r cmd hr := mem_since_cons he (h.requests r cmd hr)
  touched ht := (h.touched ht).cons he
  granted hg := (h.granted hg).cons he

/-- An event of connection `i` itself. -/
theorem ClientAux.Recalls.step (h : (v.client i).Recalls ext files i es) (hi : e.actor = some i)
    (ha : v.allowed ext e) (hv : v = (machine ext files).replay es) (hs : v.Sent es) :
    ((v.client i).step e).Recalls ext files i (e :: es) := by
  cases e with
  | ownerRead j owner =>
    obtain rfl : j = i := Option.some.inj hi
    refine { h.cons rfl with owner := fun o ho => ?_ }
    obtain rfl : owner = o := by simpa [ClientAux.step] using ho
    exact .head (hv ▸ ha.symm)
  | settingsRead j settings =>
    obtain rfl : j = i := Option.some.inj hi
    refine { h.cons rfl with settings := fun s hs => ?_ }
    obtain rfl : settings = s := by simpa [ClientAux.step] using hs
    exact .head (hv ▸ ha.symm)
  | windowRead j service now hit =>
    obtain rfl : j = i := Option.some.inj hi
    refine { h.cons rfl with window := fun s t hw => ?_ }
    obtain ⟨rfl, rfl, rfl⟩ : service = s ∧ now = t ∧ hit = true := by
      simpa [ClientAux.step] using hw
    obtain ⟨hnow, hhit⟩ := ha
    exact .head (hv ▸ ⟨hnow.symm, by simpa [Option.any_eq_true] using hhit⟩)
  | connectedRead j b =>
    obtain rfl : j = i := Option.some.inj hi
    refine { h.cons rfl with connected := fun hc => ?_ }
    obtain rfl : b = true := hc
    exact .head (hv ▸ ha.symm)
  | verifiedRead j b =>
    obtain rfl : j = i := Option.some.inj hi
    refine { h.cons rfl with verified := fun hc => ?_ }
    obtain rfl : b = true := hc
    exact .head (hv ▸ ha.symm)
  | registered j entry =>
    obtain rfl : j = i := Option.some.inj hi
    have hst : Ev.registers j (.registered j entry) = true := beq_self_eq_true j
    exact {
      owner := fun o ho => (h.owner o ho).cons
      settings := fun s hs => (h.settings s hs).cons
      window := fun s t hw => (h.window s t hw).cons
      connected := fun hc => (h.connected hc).cons
      verified := fun hv => (h.verified hv).cons
      entry := fun x hx => ⟨es, by
        obtain rfl : entry = x := by simpa [ClientAux.step] using hx
        rw [sinceEntry, since_start hst, List.nil_append]⟩
      requests := fun r cmd hr => by simp [ClientAux.step] at hr
      touched := fun ht => by simp [ClientAux.step] at ht
      granted := fun hg => by simp [ClientAux.step] at hg }
  | queued j r cmd =>
    obtain rfl : j = i := Option.some.inj hi
    refine { h.cons rfl with requests := fun r' cmd' hr => ?_ }
    obtain hr | hr := List.mem_cons.mp hr
    · obtain ⟨rfl, rfl⟩ := Prod.mk.inj hr
      exact mem_since_head rfl
    · exact mem_since_cons rfl (h.requests r' cmd' hr)
  | gotReply j r reply =>
    obtain rfl : j = i := Option.some.inj hi
    refine { h.cons rfl with touched := fun ht => ?_ }
    have ht' : (v.client j).touched = true ∨
        (r, .authRequest) ∈ (v.client j).requests ∧ reply = .auth (.ok true) := by
      simpa [ClientAux.step] using ht
    obtain ht | ⟨hr, rfl⟩ := ht'
    · exact (h.touched ht).cons rfl
    · have hq := h.requests r _ hr
      have hrep := mem_since_of_mem_since (by simp [Ev.queues]) hq (hs.reply r _ ha)
      exact ⟨r, mem_since_cons rfl hq, mem_since_cons rfl hrep⟩
  | gotPending j b =>
    obtain rfl : j = i := Option.some.inj hi
    refine { h.cons rfl with granted := fun hg => ?_ }
    have hg' : (v.client j).granted = true ∨ b = true := by simpa [ClientAux.step] using hg
    obtain hg | rfl := hg'
    · exact (h.granted hg).cons rfl
    · exact (hs.pending j (ha rfl)).cons rfl
  | denied j entry =>
    exact { h.cons rfl with }
  | _ => exact h.cons rfl

theorem View.recalls (h : (machine ext files).Trace ok es v) (hi : i ≠ 0) :
    (v.client i).Recalls ext files i es := by
  have h' : (machine ext files).Trace (fun _ _ => True) es v ∧
      (v.client i).Recalls ext files i es := by
    refine h.invariant (I := fun es v => (machine ext files).Trace (fun _ _ => True) es v ∧
      (v.client i).Recalls ext files i es) ⟨.nil, ?_⟩ ?_
    · constructor <;> intros <;> contradiction
    · rintro es v e ⟨ht, hr⟩ ha -
      refine ⟨ht.cons ha trivial, ?_⟩
      show ((v.step ext e).client i).Recalls ext files i (e :: es)
      rw [View.client_step hi]
      split
      next he => exact hr.step he ha ht.eq_replay (View.sent ht)
      next he =>
        refine hr.cons ?_
        cases e with
        | registered j _ => simpa [Ev.registers, Ev.actor] using he
        | _ => rfl
  exact h'.2

-- ---------------------------------------------------------------------------
-- Runs
-- ---------------------------------------------------------------------------

/-- What a connection that is justified recalls is an authorization. -/
theorem ClientAux.Justified.authorization {a : ClientAux} {user service : Str}
    (h : a.Justified ext user service) (hr : a.Recalls ext files i l)
    (hm : ∀ f, .approved i f true ∈ l → Verified ext files f l) :
    Authorized ext files i user service l := by
  obtain ⟨⟨owner, ho, huid⟩, ⟨settings, hs, hallowed⟩, htouch⟩ := h
  refine ⟨⟨owner, hr.owner _ ho, huid⟩, ⟨settings, hr.settings _ hs, hallowed⟩, ?_⟩
  obtain ⟨t, hw⟩ | ⟨hc, hv, he, ht⟩ := htouch
  · exact .inl ⟨t, hr.window _ _ hw⟩
  · refine .inr ⟨hr.connected hc, hr.verified hv, hr.entry _ he, ?_⟩
    obtain ht | hg := ht
    · exact .inl (hr.touched ht)
    · obtain ⟨f, hf⟩ := hr.granted hg
      exact .inr ⟨f, hf, hm f (mem_of_mem_since hf)⟩

/-- Whatever a match was used for, its HMAC was verified before. -/
theorem verified_of_approved (h : (machine ext files).Trace ok es v) {f : Frame} {waiting : Bool}
    (hf : .approved i f waiting ∈ es) : Verified ext files f es := by
  obtain ⟨l', l, rfl⟩ := List.append_of_mem hf
  obtain ⟨u, hu, ha, -⟩ := h.at rfl
  obtain ⟨key, hk, hm⟩ := (View.checked hu).matched f ha.2.1
  exact ⟨key, hk.suffix ⟨l' ++ [.approved i f waiting], by simp⟩, hm⟩

/-- In every run an OK to `AUTH` was authorized. -/
theorem authorized (h : (system ext).Reach (start ext files) c) {user service m : Str}
    (hl : (.answered i (.auth user service) (.ok m) :: l) <:+ c.shared.log) :
    Authorized ext files i user service l := by
  obtain ⟨u, hu, ha, -⟩ := (reached h).suffix hl
  replace ha : (u.client i).Justified ext user service := ha
  by_cases hi : i = 0
  · subst hi
    obtain ⟨owner, ho, -⟩ := ha.owned
    rw [View.no_client hu] at ho
    cases ho
  · exact ha.authorization (View.recalls hu hi) fun f hf => verified_of_approved hu hf

theorem authorized_touched : ∃ l, Authorized .sample .sample 1 "u" "sudo" l := by
  obtain ⟨c, hr, hc⟩ := System.exists_run (system .sample) (fun _ _ => true)
    (start .sample .sample) touched
    (fun s => s.log.contains (.answered 1 (.auth "u" "sudo") (.ok "AUTHENTICATED")))
    (by decide +kernel)
  obtain ⟨l', l, hl⟩ := List.append_of_mem (List.contains_iff_mem.mp hc)
  exact ⟨l, authorized hr.reach ⟨l', hl.symm⟩⟩

end Immurok
