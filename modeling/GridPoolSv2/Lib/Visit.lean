import Mathlib.Data.List.AList
import Mathlib.Data.List.TakeWhile

/-!
# Lib.Visit: visiting the entries of a map until one fails

The loop behind a `try_for_each_mut`: the entries of a map are visited one after the other,
each visit may replace the value it sees and leave **notes** behind, and the first failing
visit ends the loop. What earlier visits (and the failing one) changed stays changed.

Three facts are all that callers need: what an entry can look like afterwards
(`visit_lookup`, and `visit_entry` with the reason for it), where a note comes from
(`mem_visit_notes`), and that a loop without an error has visited every entry (`visit_ok`).
Where the order of the visits matters, `Sweep` says which places a loop reached before the
first failure; sweeps compose along `Outcome.andThen`, so nested loops are one sweep.
-/

namespace Visit

variable {K V N E : Type*}

/-- What a visit, or a whole loop of them, leaves behind. -/
structure Outcome (V N E : Type*) where
  value : V
  notes : List N
  error : Option E

/-- A visit that changes nothing. -/
def Outcome.keep (v : V) : Outcome V N E := ⟨v, [], none⟩

/-- A visit that fails before it changes anything. -/
def Outcome.fail (v : V) (e : E) : Outcome V N E := ⟨v, [], some e⟩

@[simp] theorem Outcome.keep_value (v : V) : (Outcome.keep v : Outcome V N E).value = v := rfl
@[simp] theorem Outcome.keep_notes (v : V) : (Outcome.keep v : Outcome V N E).notes = [] := rfl
@[simp] theorem Outcome.keep_error (v : V) : (Outcome.keep v : Outcome V N E).error = none := rfl
@[simp] theorem Outcome.fail_value (v : V) (e : E) :
    (Outcome.fail v e : Outcome V N E).value = v := rfl
@[simp] theorem Outcome.fail_notes (v : V) (e : E) :
    (Outcome.fail v e : Outcome V N E).notes = [] := rfl
@[simp] theorem Outcome.fail_error (v : V) (e : E) :
    (Outcome.fail v e : Outcome V N E).error = some e := rfl

/-- Go on after a visit, unless it failed. -/
def Outcome.andThen (o : Outcome V N E) (f : V → Outcome V N E) : Outcome V N E :=
  match o.error with
  | some _ => o
  | none => ⟨(f o.value).value, o.notes ++ (f o.value).notes, (f o.value).error⟩

section AndThen

variable {o : Outcome V N E} {f : V → Outcome V N E}

theorem Outcome.andThen_eq_of_error {e : E} (h : o.error = some e) : o.andThen f = o := by
  simp only [Outcome.andThen, h]

theorem Outcome.andThen_eq_of_ok (h : o.error = none) :
    o.andThen f = ⟨(f o.value).value, o.notes ++ (f o.value).notes, (f o.value).error⟩ := by
  simp only [Outcome.andThen, h]

theorem Outcome.andThen_error_eq_none (h : (o.andThen f).error = none) :
    o.error = none ∧ (f o.value).error = none := by
  cases ho : o.error with
  | some e =>
      rw [Outcome.andThen_eq_of_error ho, ho] at h
      cases h
  | none =>
      rw [Outcome.andThen_eq_of_ok ho] at h
      exact ⟨rfl, h⟩

theorem Outcome.andThen_assoc {g : V → Outcome V N E} :
    (o.andThen f).andThen g = o.andThen fun v => (f v).andThen g := by
  cases ho : o.error with
  | some e => simp only [Outcome.andThen, ho]
  | none => cases hf : (f o.value).error <;> simp [Outcome.andThen, ho, hf, List.append_assoc]

end AndThen

/-- Visit the entries from the left until one fails. -/
def visitList (f : K → V → Outcome V N E) :
    List (Sigma fun _ : K => V) → Outcome (List (Sigma fun _ : K => V)) N E
  | [] => ⟨[], [], none⟩
  | ⟨k, v⟩ :: rest =>
      let here := f k v
      match here.error with
      | some e => ⟨⟨k, here.value⟩ :: rest, here.notes, some e⟩
      | none =>
          let there := visitList f rest
          ⟨⟨k, here.value⟩ :: there.value, here.notes ++ there.notes, there.error⟩

theorem visitList_keys (f : K → V → Outcome V N E) (l : List (Sigma fun _ : K => V)) :
    (visitList f l).value.keys = l.keys := by
  induction l with
  | nil => rfl
  | cons x l ih =>
      simp only [visitList]
      split
      · rfl
      · simpa [List.keys] using ih

/-- Visit the entries of a map until one fails. -/
def visit (f : K → V → Outcome V N E) (m : AList fun _ : K => V) :
    Outcome (AList fun _ : K => V) N E :=
  let r := visitList f m.entries
  ⟨⟨r.value, by
    have hkeys := visitList_keys f m.entries
    rw [List.NodupKeys, hkeys]
    exact m.nodupKeys⟩, r.notes, r.error⟩

section Lookup

variable [DecidableEq K] {f : K → V → Outcome V N E} {l : List (Sigma fun _ : K => V)}

theorem visitList_lookup (f : K → V → Outcome V N E) (l : List (Sigma fun _ : K => V)) (k : K) :
    (visitList f l).value.dlookup k = l.dlookup k ∨
      ∃ v, l.dlookup k = some v ∧ (visitList f l).value.dlookup k = some (f k v).value ∧
        ∀ x ∈ (f k v).notes, x ∈ (visitList f l).notes := by
  induction l with
  | nil => exact .inl rfl
  | cons x l ih =>
      obtain ⟨k', v⟩ := x
      simp only [visitList]
      by_cases hk : k = k'
      · subst hk
        refine .inr ⟨v, List.dlookup_cons_eq _ _ _, ?_⟩
        split
        · exact ⟨List.dlookup_cons_eq _ _ _, fun _ hx => hx⟩
        · exact ⟨List.dlookup_cons_eq _ _ _, fun _ hx => List.mem_append_left _ hx⟩
      · have hl : List.dlookup k ((⟨k', v⟩ : Sigma fun _ : K => V) :: l) = l.dlookup k :=
          List.dlookup_cons_ne _ _ hk
        rw [hl]
        split
        · exact .inl (List.dlookup_cons_ne _ _ hk)
        · have hr : List.dlookup k ((⟨k', (f k' v).value⟩ : Sigma fun _ : K => V) ::
              (visitList f l).value) = (visitList f l).value.dlookup k :=
            List.dlookup_cons_ne _ _ hk
          rw [hr]
          refine ih.imp_right ?_
          rintro ⟨w, hw, hv, hn⟩
          exact ⟨w, hw, hv, fun y hy => List.mem_append_right _ (hn y hy)⟩

theorem mem_visitList_notes (hl : l.NodupKeys) {x : N} (hx : x ∈ (visitList f l).notes) :
    ∃ k v, l.dlookup k = some v ∧ x ∈ (f k v).notes ∧
      (visitList f l).value.dlookup k = some (f k v).value := by
  induction l with
  | nil => simp [visitList] at hx
  | cons y l ih =>
      obtain ⟨k', v⟩ := y
      simp only [visitList] at hx ⊢
      obtain ⟨hfresh, hl⟩ := List.nodupKeys_cons.mp hl
      split at hx
      · exact ⟨k', v, List.dlookup_cons_eq _ _ _, hx, List.dlookup_cons_eq _ _ _⟩
      · rcases List.mem_append.mp hx with hx | hx
        · exact ⟨k', v, List.dlookup_cons_eq _ _ _, hx, List.dlookup_cons_eq _ _ _⟩
        · obtain ⟨k, w, hw, hn, hv⟩ := ih hl hx
          have hne : k ≠ k' := by
            rintro rfl
            exact hfresh (List.dlookup_isSome.mp (by rw [hw]; rfl))
          exact ⟨k, w, (List.dlookup_cons_ne _ _ hne).trans hw, hn,
            (List.dlookup_cons_ne _ _ hne).trans hv⟩

theorem visitList_ok (h : (visitList f l).error = none) {k : K} {v : V}
    (hv : l.dlookup k = some v) :
    (visitList f l).value.dlookup k = some (f k v).value ∧ (f k v).error = none ∧
      ∀ x ∈ (f k v).notes, x ∈ (visitList f l).notes := by
  induction l with
  | nil => cases hv
  | cons y l ih =>
      obtain ⟨k', w⟩ := y
      simp only [visitList] at h ⊢
      split at h
      · cases h
      · rename_i herr
        by_cases hk : k = k'
        · subst hk
          rw [List.dlookup_cons_eq] at hv
          obtain rfl := Option.some.inj hv
          exact ⟨List.dlookup_cons_eq _ _ _, herr, fun x hx => List.mem_append_left _ hx⟩
        · rw [List.dlookup_cons_ne _ _ hk] at hv
          obtain ⟨hval, he, hn⟩ := ih h hv
          exact ⟨(List.dlookup_cons_ne _ _ hk).trans hval, he,
            fun x hx => List.mem_append_right _ (hn x hx)⟩

theorem visitList_keep_lookup (g : K → V → V) (l : List (Sigma fun _ : K => V)) (k : K) :
    (visitList (N := N) (E := E) (fun k v => .keep (g k v)) l).value.dlookup k =
      (l.dlookup k).map (g k) := by
  induction l with
  | nil => rfl
  | cons x l ih =>
      obtain ⟨k', v⟩ := x
      simp only [visitList, Outcome.keep_error, Outcome.keep_value]
      by_cases hk : k = k'
      · subst hk
        rw [List.dlookup_cons_eq, List.dlookup_cons_eq]
        rfl
      · rw [List.dlookup_cons_ne _ _ hk, List.dlookup_cons_ne _ _ hk]
        exact ih

variable {m : AList fun _ : K => V}

/-- A loop that only replaces what it sees replaces every entry. -/
theorem visit_keep_lookup (g : K → V → V) (m : AList fun _ : K => V) (k : K) :
    (visit (N := N) (E := E) (fun k v => .keep (g k v)) m).value.lookup k =
      (m.lookup k).map (g k) :=
  visitList_keep_lookup g m.entries k

/-- An entry is as it was, or it was visited and its notes are kept. -/
theorem visit_lookup (f : K → V → Outcome V N E) (m : AList fun _ : K => V) (k : K) :
    (visit f m).value.lookup k = m.lookup k ∨
      ∃ v, m.lookup k = some v ∧ (visit f m).value.lookup k = some (f k v).value ∧
        ∀ x ∈ (f k v).notes, x ∈ (visit f m).notes :=
  visitList_lookup f m.entries k

/-- Every note was left by the visit of an entry. -/
theorem mem_visit_notes {x : N} (hx : x ∈ (visit f m).notes) :
    ∃ k v, m.lookup k = some v ∧ x ∈ (f k v).notes ∧
      (visit f m).value.lookup k = some (f k v).value :=
  mem_visitList_notes m.nodupKeys hx

/-- A loop without an error visited every entry, without an error. -/
theorem visit_ok (h : (visit f m).error = none) {k : K} {v : V} (hv : m.lookup k = some v) :
    (visit f m).value.lookup k = some (f k v).value ∧ (f k v).error = none ∧
      ∀ x ∈ (f k v).notes, x ∈ (visit f m).notes :=
  visitList_ok h hv

/-- The fate of one key: it is absent, or it was not reached because of an error, or it was
visited. -/
theorem visit_entry (f : K → V → Outcome V N E) (m : AList fun _ : K => V) (k : K) :
    (m.lookup k = none ∧ (visit f m).value.lookup k = none) ∨
      ∃ v, m.lookup k = some v ∧
        (((visit f m).value.lookup k = some v ∧ (visit f m).error ≠ none) ∨
          ((visit f m).value.lookup k = some (f k v).value ∧
            ((f k v).error ≠ none → (visit f m).error ≠ none) ∧
            ∀ x ∈ (f k v).notes, x ∈ (visit f m).notes)) := by
  cases hv : m.lookup k with
  | none =>
      refine .inl ⟨rfl, ?_⟩
      rcases visit_lookup f m k with hsame | ⟨v, hv', -⟩
      · exact hsame.trans hv
      · rw [hv] at hv'
        cases hv'
  | some v =>
      refine .inr ⟨v, rfl, ?_⟩
      cases he : (visit f m).error with
      | none =>
          obtain ⟨hval, herr, hn⟩ := visit_ok he hv
          exact .inr ⟨hval, fun h => absurd herr h, hn⟩
      | some e =>
          rcases visit_lookup f m k with hsame | ⟨v', hv', hval, hn⟩
          · exact .inl ⟨hsame.trans hv, by simp⟩
          · obtain rfl := Option.some.inj (hv.symm.trans hv')
            exact .inr ⟨hval, fun _ => by simp, hn⟩

/-- The values after a loop come from the values before it. -/
theorem visit_lookup_some {k : K} {v' : V} (h : (visit f m).value.lookup k = some v') :
    ∃ v, m.lookup k = some v ∧ (v' = v ∨ v' = (f k v).value) := by
  rcases visit_lookup f m k with hsame | ⟨v, hv, hval, -⟩
  · exact ⟨v', hsame ▸ h, .inl rfl⟩
  · exact ⟨v, hv, .inr (Option.some.inj (h.symm.trans hval))⟩

end Lookup

/-! ### What a loop reached -/

/-- A loop went through `places` in this order, with these visits: it reached the places before the
first visit that failed, and left the others as they were. `look` reads a place of the result. -/
structure Sweep {A B : Type*} (places : List A) (body : A → Outcome B N E) (was : A → B)
    (look : V → A → Option B) (o : Outcome V N E) : Prop where
  error : o.error = none ↔ ∀ x ∈ places, (body x).error = none
  notes : o.error = none → o.notes = places.flatMap fun x => (body x).notes
  reached : ∀ x ∈ places.takeWhile fun x => (body x).error.isNone,
    look o.value x = some (body x).value
  unreached : ∀ x ∈ places, x ∉ places.takeWhile (fun x => (body x).error.isNone) →
    look o.value x = some (was x)

section Sweep

variable {A B : Type*} {xs ys : List A} {p : A → Bool}

theorem takeWhile_append_of_fails (h : ¬ ∀ x ∈ xs, p x = true) :
    (xs ++ ys).takeWhile p = xs.takeWhile p := by
  rw [List.takeWhile_append, if_neg]
  intro hlength
  have hself := (List.takeWhile_prefix p).eq_of_length hlength
  exact h (List.takeWhile_eq_self_iff.mp hself)

variable {body : A → Outcome B N E} {was : A → B} {o : Outcome V N E}
  {look : V → A → Option B}

theorem Sweep.nil (h : o.error = none) (hn : o.notes = []) : Sweep [] body was look o where
  error := by simp [h]
  notes := fun _ => by simp [hn]
  reached := by simp
  unreached := by simp

/-- One loop after another, unless the first failed. The loops do not touch each other's places. -/
theorem Sweep.append {f : V → Outcome V N E} (h : Sweep xs body was look o)
    (h' : o.error = none → Sweep ys body was look (f o.value))
    (hxs : ∀ x ∈ xs, look (f o.value).value x = look o.value x)
    (hys : ∀ y ∈ ys, o.error ≠ none → look o.value y = some (was y)) :
    Sweep (xs ++ ys) body was look (o.andThen f) := by
  cases he : o.error with
  | some e =>
      rw [Outcome.andThen_eq_of_error he]
      have hfails : ¬ ∀ x ∈ xs, (body x).error = none := fun hall => by
        rw [h.error.mpr hall] at he
        cases he
      have htake : (xs ++ ys).takeWhile (fun x => (body x).error.isNone) =
          xs.takeWhile fun x => (body x).error.isNone :=
        takeWhile_append_of_fails fun hall =>
          hfails fun x hx => Option.isNone_iff_eq_none.mp (hall x hx)
      refine ⟨?_, fun hnone => ?_, ?_, ?_⟩
      · simp only [he, reduceCtorEq, false_iff]
        exact fun hall => hfails fun x hx => hall x (List.mem_append_left _ hx)
      · rw [he] at hnone
        cases hnone
      · rw [htake]
        exact h.reached
      · rw [htake]
        intro x hx hnot
        rcases List.mem_append.mp hx with hx | hx
        · exact h.unreached x hx hnot
        · exact hys x hx (by simp [he])
  | none =>
      have h' := h' he
      have hall := h.error.mp he
      have htake : (xs ++ ys).takeWhile (fun x => (body x).error.isNone) =
          xs ++ ys.takeWhile fun x => (body x).error.isNone :=
        List.takeWhile_append_of_pos fun x hx => by simp [hall x hx]
      have hreached : ∀ x ∈ xs, look o.value x = some (body x).value := by
        intro x hx
        refine h.reached x ?_
        rwa [List.takeWhile_eq_self_iff.mpr]
        exact fun y hy => by simp [hall y hy]
      rw [Outcome.andThen_eq_of_ok he]
      refine ⟨?_, fun hnone => ?_, ?_, ?_⟩
      · rw [h'.error]
        constructor
        · intro hys x hx
          exact (List.mem_append.mp hx).elim (hall x) (hys x)
        · exact fun hboth x hx => hboth x (List.mem_append_right _ hx)
      · rw [h.notes he, h'.notes hnone, List.flatMap_append]
      · rw [htake]
        intro x hx
        rcases List.mem_append.mp hx with hx | hx
        · exact (hxs x hx).trans (hreached x hx)
        · exact h'.reached x hx
      · rw [htake]
        intro x hx hnot
        rcases List.mem_append.mp hx with hx | hx
        · exact absurd (List.mem_append_left _ hx) hnot
        · exact h'.unreached x hx fun hmem => hnot (List.mem_append_right _ hmem)

/-- The same loop, read in another value. -/
theorem Sweep.congr {W : Type*} {look' : W → A → Option B} {o' : Outcome W N E}
    (h : Sweep xs body was look o) (he : o'.error = o.error) (hn : o'.notes = o.notes)
    (hlook : ∀ x ∈ xs, look' o'.value x = look o.value x) : Sweep xs body was look' o' where
  error := by rw [he, h.error]
  notes := by rw [he, hn]; exact h.notes
  reached := fun x hx => (hlook x ((List.takeWhile_sublist _).mem hx)).trans (h.reached x hx)
  unreached := fun x hx hnot => (hlook x hx).trans (h.unreached x hx hnot)

/-- Visiting one place. A visit that fails leaves it as it was. -/
theorem Sweep.single {b : B} (body : A → Outcome B N E) (x : A) (hb : was x = b)
    (hkeep : (body x).error ≠ none → (body x).value = b) :
    Sweep [x] body was (fun v _ => some v) (body x) where
  error := by simp
  notes := fun _ => by simp
  reached := by
    intro y hy
    obtain rfl := List.mem_singleton.mp ((List.takeWhile_sublist _).mem hy)
    rfl
  unreached := by
    intro y hy hnot
    obtain rfl := List.mem_singleton.mp hy
    rw [hb, hkeep]
    intro hnone
    exact hnot (by simp [hnone])

variable {K : Type*} [DecidableEq K] {f : K → V → Outcome V N E} {places : K → V → List A}
  {key : A → K} {read : V → A → Option B}

/-- **Nested loops are one sweep.** If the visit of every entry of a map sweeps the places of this
entry, the loop over the map sweeps the places of all entries. -/
theorem visitList_sweep {l : List (Sigma fun _ : K => V)} (hl : l.NodupKeys)
    (hkey : ∀ k v, ∀ a ∈ places k v, key a = k ∧ read v a = some (was a))
    (hvisit : ∀ x ∈ l, Sweep (places x.1 x.2) body was read (f x.1 x.2)) :
    Sweep (l.flatMap fun x => places x.1 x.2) body was
      (fun m a => (m.dlookup (key a)).bind fun v => read v a) (visitList f l) := by
  induction l with
  | nil => exact .nil rfl rfl
  | cons y l ih =>
      obtain ⟨k, v⟩ := y
      obtain ⟨hfresh, hl⟩ := List.nodupKeys_cons.mp hl
      have ih := ih hl fun x hx => hvisit x (List.mem_cons_of_mem _ hx)
      have hcons : visitList f (⟨k, v⟩ :: l) =
          Outcome.andThen ⟨⟨k, (f k v).value⟩ :: l, (f k v).notes, (f k v).error⟩ fun _ =>
            ⟨⟨k, (f k v).value⟩ :: (visitList f l).value, (visitList f l).notes,
              (visitList f l).error⟩ := by
        simp only [visitList, Outcome.andThen]
        cases (f k v).error <;> rfl
      -- the places of the first entry are read from it, the others from the rest
      have hfirst : ∀ a ∈ places k v, ∀ w (m : List (Sigma fun _ : K => V)),
          ((List.dlookup (key a) (⟨k, w⟩ :: m)).bind fun v => read v a) = read w a := by
        intro a ha w m
        rw [(hkey k v a ha).1, List.dlookup_cons_eq]
        rfl
      have hrest : ∀ a ∈ l.flatMap (fun x => places x.1 x.2), ∀ w (m : List (Sigma fun _ : K => V)),
          List.dlookup (key a) (⟨k, w⟩ :: m) = m.dlookup (key a) := by
        intro a ha w m
        obtain ⟨x, hx, hax⟩ := List.mem_flatMap.mp ha
        refine List.dlookup_cons_ne _ _ fun hk => hfresh ?_
        have hkx : k = x.1 := hk.symm.trans (hkey x.1 x.2 a hax).1
        rw [hkx]
        exact List.mem_keys_of_mem (s := x) hx
      rw [hcons, List.flatMap_cons]
      refine Sweep.append ?_ (fun _ => ?_) ?_ ?_
      · exact (hvisit ⟨k, v⟩ List.mem_cons_self).congr rfl rfl fun a ha => hfirst a ha _ _
      · exact ih.congr rfl rfl fun a ha => by rw [hrest a ha]
      · intro a ha
        rw [hfirst a ha, hfirst a ha]
      · intro a ha _
        obtain ⟨x, hx, hax⟩ := List.mem_flatMap.mp ha
        obtain ⟨hk, hread⟩ := hkey x.1 x.2 a hax
        rw [hrest a ha, hk, List.mem_dlookup hl (b := x.2) hx, Option.bind_some, hread]

theorem visit_sweep (places : K → V → List A) (key : A → K) (read : V → A → Option B)
    {m : AList fun _ : K => V} (hkey : ∀ k v, ∀ a ∈ places k v, key a = k ∧ read v a = some (was a))
    (hvisit : ∀ x ∈ m.entries, Sweep (places x.1 x.2) body was read (f x.1 x.2)) :
    Sweep (m.entries.flatMap fun x => places x.1 x.2) body was
      (fun m a => (m.lookup (key a)).bind fun v => read v a) (visit f m) :=
  (visitList_sweep m.nodupKeys hkey hvisit).congr rfl rfl fun _ _ => rfl

end Sweep

end Visit
