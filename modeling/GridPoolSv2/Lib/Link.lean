import GridPoolSv2.Lib.Runs
import Mathlib.Data.List.Basic

/-!
# Lib.Link: two parties over a pair of FIFO queues

A client and a server exchange frames over two first-in-first-out queues, `up` to the server
and `down` to the client. Each party handles the first frame of its queue or acts on its own,
in any order, and sends frames in either case; the connection may be cut at any time, and the
frames in flight are lost then.

Some frames are **control** frames: requests (`reqOf`) and replies (`repOf`). `Dialogue` is the
rule for parties that speak of control in turns: a reply is sent for a request only, a request
for a reply only, at most one each time, and none by a party on its own. Then at most one
control frame is in flight, and an invariant may be stated by where it is (`Dialogue.exec`, and
`Dialogue.exec_uncut` for an invariant that the loss of the frames in flight would break).
-/

namespace Link

open Runs

variable {C S U D A B Q R : Type*}

structure State (C S U D : Type*) where
  client : C
  server : S
  up : List U := []
  down : List D := []
  connected : Bool := true

/-- What the two parties do; every function returns the frames that are sent. -/
structure Parties (C S U D A B : Type*) where
  clientReceives : C → D → C × List U
  serverReceives : S → U → S × List D
  clientActs : A → C → C × List U
  serverActs : B → S → S × List D

inductive Event (A B : Type*) where
  | deliverUp
  | deliverDown
  | client (a : A)
  | server (b : B)
  | cut

/-- One step of a connection that is still there. -/
def turn (p : Parties C S U D A B) (s : State C S U D) : Event A B → State C S U D
  | .deliverUp =>
      match s.up with
      | [] => s
      | u :: rest =>
          let r := p.serverReceives s.server u
          { s with server := r.1, up := rest, down := s.down ++ r.2 }
  | .deliverDown =>
      match s.down with
      | [] => s
      | d :: rest =>
          let r := p.clientReceives s.client d
          { s with client := r.1, down := rest, up := s.up ++ r.2 }
  | .client a =>
      let r := p.clientActs a s.client
      { s with client := r.1, up := s.up ++ r.2 }
  | .server b =>
      let r := p.serverActs b s.server
      { s with server := r.1, down := s.down ++ r.2 }
  | .cut => { s with up := [], down := [], connected := false }

def step (p : Parties C S U D A B) (s : State C S U D) (e : Event A B) : State C S U D :=
  if s.connected then turn p s e else s

theorem step_deliverUp {p : Parties C S U D A B} {s : State C S U D} {u : U} {rest : List U}
    (h : s.connected = true) (hup : s.up = u :: rest) :
    step p s .deliverUp =
      { s with
        server := (p.serverReceives s.server u).1
        up := rest
        down := s.down ++ (p.serverReceives s.server u).2 } := by
  simp [step, turn, h, hup]

theorem step_deliverDown {p : Parties C S U D A B} {s : State C S U D} {d : D} {rest : List D}
    (h : s.connected = true) (hdown : s.down = d :: rest) :
    step p s .deliverDown =
      { s with
        client := (p.clientReceives s.client d).1
        down := rest
        up := s.up ++ (p.clientReceives s.client d).2 } := by
  simp [step, turn, h, hdown]

variable (reqOf : U → Option Q) (repOf : D → Option R)

/-- The control frames in flight. -/
def control (s : State C S U D) : List (Q ⊕ R) :=
  (s.up.filterMap reqOf).map .inl ++ (s.down.filterMap repOf).map .inr

/-- The frames of a queue that are no control frames. -/
def others {F T : Type*} (of : F → Option T) (fs : List F) : List F :=
  fs.filter fun f => (of f).isNone

/-- Frames that are no control frames, in two queues. -/
theorem others_append {F T : Type*} (of : F → Option T) (fs gs : List F) :
    others of (fs ++ gs) = others of fs ++ others of gs :=
  List.filter_append ..

theorem others_cons_of_none {F T : Type*} {of : F → Option T} {f : F} {fs : List F}
    (h : of f = none) : others of (f :: fs) = f :: others of fs :=
  List.filter_cons_of_pos (by simp [h])

theorem others_cons_of_some {F T : Type*} {of : F → Option T} {f : F} {t : T} {fs : List F}
    (h : of f = some t) : others of (f :: fs) = others of fs :=
  List.filter_cons_of_neg (by simp [h])

theorem others_of_filterMap_nil {F T : Type*} {of : F → Option T} {fs : List F}
    (h : fs.filterMap of = []) : others of fs = fs := by
  refine List.filter_eq_self.mpr fun f hf => ?_
  simp [List.filterMap_eq_nil_iff.mp h f hf]

/-- The rule of a dialogue. The invariant sees the control frame in flight, the parties and the
other frames of both queues. -/
structure Dialogue (p : Parties C S U D A B)
    (I : Option (Q ⊕ R) → C → S → List U → List D → Prop) : Prop where
  request : ∀ c s us ds u q, reqOf u = some q → I (some (.inl q)) c s us ds →
    ∃ t : Option R, (p.serverReceives s u).2.filterMap repOf = t.toList ∧
      I (t.map .inr) c (p.serverReceives s u).1 us
        (ds ++ others repOf (p.serverReceives s u).2)
  reply : ∀ c s us ds d r, repOf d = some r → I (some (.inr r)) c s us ds →
    ∃ t : Option Q, (p.clientReceives c d).2.filterMap reqOf = t.toList ∧
      I (t.map .inl) (p.clientReceives c d).1 s
        (us ++ others reqOf (p.clientReceives c d).2) ds
  fromClient : ∀ t c s us ds u, reqOf u = none → I t c s (u :: us) ds →
    (p.serverReceives s u).2.filterMap repOf = [] ∧
      I t c (p.serverReceives s u).1 us (ds ++ (p.serverReceives s u).2)
  fromServer : ∀ t c s us ds d, repOf d = none → I t c s us (d :: ds) →
    (p.clientReceives c d).2.filterMap reqOf = [] ∧
      I t (p.clientReceives c d).1 s (us ++ (p.clientReceives c d).2) ds
  clientActs : ∀ t c s us ds a, I t c s us ds →
    (p.clientActs a c).2.filterMap reqOf = [] ∧
      I t (p.clientActs a c).1 s (us ++ (p.clientActs a c).2) ds
  serverActs : ∀ t c s us ds b, I t c s us ds →
    (p.serverActs b s).2.filterMap repOf = [] ∧
      I t c (p.serverActs b s).1 us (ds ++ (p.serverActs b s).2)

/-- At most one control frame is in flight, and the invariant holds for it. -/
def Holds (I : Option (Q ⊕ R) → C → S → List U → List D → Prop) (s : State C S U D) : Prop :=
  ∃ t : Option (Q ⊕ R), control reqOf repOf s = t.toList ∧
    I t s.client s.server (others reqOf s.up) (others repOf s.down)

variable {reqOf : U → Option Q} {repOf : D → Option R} {p : Parties C S U D A B}
  {I : Option (Q ⊕ R) → C → S → List U → List D → Prop}

theorem eq_nil_of_cons_append_toList {α β : Type*} {a : α} {as : List α} {bs : List β}
    {t : Option (α ⊕ β)} (h : (a :: as).map Sum.inl ++ bs.map Sum.inr = t.toList) :
    t = some (.inl a) ∧ as = [] ∧ bs = [] := by
  cases t with
  | none => simp at h
  | some x =>
      simp only [List.map_cons, List.cons_append, Option.toList_some, List.cons.injEq,
        List.append_eq_nil_iff, List.map_eq_nil_iff] at h
      obtain ⟨rfl, rfl, rfl⟩ := h
      exact ⟨rfl, rfl, rfl⟩

theorem eq_nil_of_append_cons_toList {α β : Type*} {as : List α} {b : β} {bs : List β}
    {t : Option (α ⊕ β)} (h : as.map Sum.inl ++ (b :: bs).map Sum.inr = t.toList) :
    t = some (.inr b) ∧ as = [] ∧ bs = [] := by
  cases as with
  | nil =>
      cases t with
      | none => simp at h
      | some x =>
          simp only [List.map_nil, List.nil_append, List.map_cons, Option.toList_some,
            List.cons.injEq, List.map_eq_nil_iff] at h
          obtain ⟨rfl, rfl⟩ := h
          exact ⟨rfl, rfl, rfl⟩
  | cons a as =>
      obtain ⟨-, -, hnil⟩ := eq_nil_of_cons_append_toList h
      cases hnil

/-- A step of a dialogue that does not cut the connection keeps its invariant. -/
theorem Dialogue.turn (h : Dialogue reqOf repOf p I) {s : State C S U D}
    (hs : Holds reqOf repOf I s) {e : Event A B} (he : e ≠ .cut) :
    Holds reqOf repOf I (Link.turn p s e) := by
  obtain ⟨t, hcontrol, hI⟩ := hs
  cases e with
  | deliverUp =>
      cases hup : s.up with
      | nil =>
          rw [show Link.turn p s .deliverUp = s by simp [Link.turn, hup]]
          exact ⟨t, hcontrol, hI⟩
      | cons u rest =>
          have hturn : Link.turn p s .deliverUp =
              { s with
                server := (p.serverReceives s.server u).1
                up := rest
                down := s.down ++ (p.serverReceives s.server u).2 } := by
            simp [Link.turn, hup]
          rw [hturn]
          cases hreq : reqOf u with
          | some q =>
              -- the request is the control frame in flight, and a reply takes its place
              rw [hup, others_cons_of_some hreq] at hI
              rw [control, hup, List.filterMap_cons_some hreq] at hcontrol
              obtain ⟨rfl, hrest, hdown⟩ := eq_nil_of_cons_append_toList hcontrol
              obtain ⟨t', hsent, hI'⟩ := h.request _ _ _ _ _ _ hreq hI
              refine ⟨t'.map .inr, ?_, ?_⟩
              · simp only [control, hrest, List.filterMap_append, hdown, hsent]
                cases t' <;> rfl
              · rw [others_append]
                exact hI'
          | none =>
              rw [hup, others_cons_of_none hreq] at hI
              rw [control, hup, List.filterMap_cons_none hreq] at hcontrol
              obtain ⟨hsent, hI'⟩ := h.fromClient _ _ _ _ _ _ hreq hI
              refine ⟨t, ?_, ?_⟩
              · rw [← hcontrol]
                simp [control, hsent]
              · rw [others_append, others_of_filterMap_nil hsent]
                exact hI'
  | deliverDown =>
      cases hdown : s.down with
      | nil =>
          rw [show Link.turn p s .deliverDown = s by simp [Link.turn, hdown]]
          exact ⟨t, hcontrol, hI⟩
      | cons d rest =>
          have hturn : Link.turn p s .deliverDown =
              { s with
                client := (p.clientReceives s.client d).1
                down := rest
                up := s.up ++ (p.clientReceives s.client d).2 } := by
            simp [Link.turn, hdown]
          rw [hturn]
          cases hrep : repOf d with
          | some r =>
              rw [hdown, others_cons_of_some hrep] at hI
              rw [control, hdown, List.filterMap_cons_some hrep] at hcontrol
              obtain ⟨rfl, hup, hrest⟩ := eq_nil_of_append_cons_toList hcontrol
              obtain ⟨t', hsent, hI'⟩ := h.reply _ _ _ _ _ _ hrep hI
              refine ⟨t'.map .inl, ?_, ?_⟩
              · simp only [control, hrest, List.filterMap_append, hup, hsent]
                cases t' <;> rfl
              · rw [others_append]
                exact hI'
          | none =>
              rw [hdown, others_cons_of_none hrep] at hI
              rw [control, hdown, List.filterMap_cons_none hrep] at hcontrol
              obtain ⟨hsent, hI'⟩ := h.fromServer _ _ _ _ _ _ hrep hI
              refine ⟨t, ?_, ?_⟩
              · rw [← hcontrol]
                simp [control, hsent]
              · rw [others_append, others_of_filterMap_nil hsent]
                exact hI'
  | client a =>
      obtain ⟨hsent, hI'⟩ := h.clientActs _ _ _ _ _ a hI
      refine ⟨t, ?_, ?_⟩
      · rw [← hcontrol]
        simp [control, Link.turn, hsent]
      · simp only [Link.turn, others_append, others_of_filterMap_nil hsent]
        exact hI'
  | server b =>
      obtain ⟨hsent, hI'⟩ := h.serverActs _ _ _ _ _ b hI
      refine ⟨t, ?_, ?_⟩
      · rw [← hcontrol]
        simp [control, Link.turn, hsent]
      · simp only [Link.turn, others_append, others_of_filterMap_nil hsent]
        exact hI'
  | cut => exact absurd rfl he

theorem Dialogue.step (h : Dialogue reqOf repOf p I) {s : State C S U D}
    (hs : Holds reqOf repOf I s) {e : Event A B} (he : e ≠ .cut) :
    Holds reqOf repOf I (Link.step p s e) := by
  unfold Link.step
  split
  · exact h.turn hs he
  · exact hs

/-- The rule for runs of a dialogue: an invariant that survives the loss of the frames in flight
holds in every run. -/
theorem Dialogue.exec (h : Dialogue reqOf repOf p I)
    (hcut : ∀ t c s us ds, I t c s us ds → I none c s [] []) {s : State C S U D}
    (hs : Holds reqOf repOf I s) (es : List (Event A B)) :
    Holds reqOf repOf I (Runs.exec (Link.step p) s es) := by
  refine exec_invariant (I := Holds reqOf repOf I) (fun s e hs => ?_) hs es
  by_cases he : e = .cut
  · subst he
    obtain ⟨t, hcontrol, hI⟩ := hs
    unfold Link.step
    split
    · exact ⟨none, rfl, hcut _ _ _ _ _ hI⟩
    · exact ⟨t, hcontrol, hI⟩
  · exact h.step hs he

/-- A connection that is there was never cut. -/
theorem cut_not_mem_of_connected {s : State C S U D} {es : List (Event A B)}
    (h : (Runs.exec (Link.step p) s es).connected = true) : .cut ∉ es := by
  have hstays (s : State C S U D) (es : List (Event A B)) (hs : s.connected = false) :
      (Runs.exec (Link.step p) s es).connected = false := by
    refine exec_invariant (I := fun s : State C S U D => s.connected = false)
      (fun s e hs => ?_) hs es
    rw [Link.step, if_neg (by simp [hs])]
    exact hs
  induction es generalizing s with
  | nil => simp
  | cons e es ih =>
      rw [List.mem_cons, not_or]
      refine ⟨?_, ih h⟩
      rintro rfl
      rw [exec_cons, hstays] at h
      · cases h
      · unfold Link.step
        split
        · rfl
        · rename_i hs
          simpa using hs

/-- The rule for runs in which the connection stays. -/
theorem Dialogue.exec_uncut (h : Dialogue reqOf repOf p I) {s : State C S U D}
    (hs : Holds reqOf repOf I s) {es : List (Event A B)} (hes : .cut ∉ es) :
    Holds reqOf repOf I (Runs.exec (Link.step p) s es) := by
  induction es generalizing s with
  | nil => exact hs
  | cons e es ih =>
      rw [List.mem_cons, not_or] at hes
      exact ih (h.step hs (Ne.symm hes.1)) hes.2

end Link
