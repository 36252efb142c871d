import Mathlib.Data.List.Basic

/-! Records cut from a stream at a delimiter. An item of the stream is a value or an
interruption of the reader (`none`); an interrupted read yields no record, and the values
it had taken are gone. -/
namespace Spectrum.Foundation

variable {α : Type*} [DecidableEq α]

/-- Values up to and including the first `d`, with the rest of the stream. -/
def readRecord (d : α) : List (Option α) → Option (List α) × List (Option α)
  | [] => (none, [])
  | none :: rest => (none, rest)
  | some a :: rest =>
    if a = d then (some [a], rest)
    else ((readRecord d rest).1.map (a :: ·), (readRecord d rest).2)

/-- The outcomes of `n` successive reads, with the rest of the stream. -/
def readRecords (d : α) : ℕ → List (Option α) → List (Option (List α)) × List (Option α)
  | 0, stream => ([], stream)
  | n + 1, stream =>
    let (r, rest) := readRecord d stream
    (r :: (readRecords d n rest).1, (readRecords d n rest).2)

/-- The delimiter stands at the end of the record and nowhere else. -/
def Terminated (d : α) (w : List α) : Prop := ∃ body, d ∉ body ∧ w = body ++ [d]

omit [DecidableEq α] in
theorem terminated_concat {d : α} {body : List α} : Terminated d (body ++ [d]) ↔ d ∉ body := by
  constructor
  · intro h
    obtain ⟨body', hb, he⟩ := h
    exact List.append_inj_left' he rfl ▸ hb
  · exact fun hb => ⟨body, hb, rfl⟩

omit [DecidableEq α] in
theorem exists_terminated_prefix {d : α} {w : List α} (hd : d ∈ w) :
    ∃ v u, Terminated d v ∧ w = v ++ u := by
  obtain ⟨body, u, rfl, hb⟩ := List.eq_append_cons_of_mem hd
  exact ⟨body ++ [d], u, terminated_concat.mpr hb, by simp⟩

omit [DecidableEq α] in
theorem Terminated.eq_delimiter_iff {d a : α} {v w : List α} (h : Terminated d (v ++ a :: w)) :
    a = d ↔ w = [] := by
  obtain ⟨body, hbody, heq⟩ := h
  rcases List.eq_nil_or_concat w with rfl | ⟨init, e, rfl⟩
  · exact iff_of_true (List.cons.inj (List.append_inj_right' heq rfl)).1 rfl
  · rw [List.concat_eq_append, ← List.cons_append, ← List.append_assoc] at heq
    have hsame := List.append_inj_left' heq rfl
    subst hsame
    refine iff_of_false (fun ha => hbody ?_) (by simp)
    rw [ha]
    exact List.mem_append_right v List.mem_cons_self

theorem readRecord_append {d : α} {w : List α} (hd : d ∉ w) (rest : List (Option α)) :
    readRecord d (w.map some ++ rest) =
      ((readRecord d rest).1.map (w ++ ·), (readRecord d rest).2) := by
  induction w with
  | nil => simp
  | cons a w ih =>
    have hne : a ≠ d := (List.ne_of_not_mem_cons hd).symm
    have hrest := ih (List.not_mem_of_not_mem_cons hd)
    have hmap : ((readRecord d rest).1.map (w ++ ·)).map (a :: ·) =
        (readRecord d rest).1.map ((a :: w) ++ ·) := by
      rw [Option.map_map]
      rfl
    simp only [List.map_cons, List.cons_append, readRecord, if_neg hne, hrest, hmap]

theorem readRecord_terminated {d : α} {w : List α} (hw : Terminated d w)
    (rest : List (Option α)) : readRecord d (w.map some ++ rest) = (some w, rest) := by
  obtain ⟨body, hb, rfl⟩ := hw
  have hend : readRecord d (some d :: rest) = (some [d], rest) := by simp [readRecord]
  have hstream : (body ++ [d]).map some ++ rest = body.map some ++ some d :: rest := by simp
  rw [hstream, readRecord_append hb, hend]
  rfl

theorem Terminated.append_inj {d : α} {v w x y : List α} (hv : Terminated d v)
    (hw : Terminated d w) (h : v ++ x = w ++ y) : v = w ∧ x = y := by
  have hread := congrArg (fun l => (readRecord d (l.map some)).1) h
  simp only [List.map_append, readRecord_terminated hv, readRecord_terminated hw] at hread
  have hsame := Option.some.inj hread
  subst hsame
  exact ⟨rfl, List.append_cancel_left h⟩

theorem Terminated.append_iff {d : α} {w u : List α} (hw : Terminated d w) :
    Terminated d (w ++ u) ↔ u = [] := by
  constructor
  · intro hwu
    exact (hwu.append_inj hw (List.append_nil (w ++ u))).2.symm
  · rintro rfl
    rwa [List.append_nil]

theorem readRecord_eq_some {d : α} {stream : List (Option α)} {w : List α}
    (hr : (readRecord d stream).1 = some w) :
    Terminated d w ∧ stream = w.map some ++ (readRecord d stream).2 := by
  induction stream generalizing w with
  | nil => simp [readRecord] at hr
  | cons item rest ih =>
    cases item with
    | none => simp [readRecord] at hr
    | some a =>
      by_cases ha : a = d
      · subst a
        have hsame : [d] = w := by simpa [readRecord] using hr
        subst hsame
        exact ⟨⟨[], by simp, rfl⟩, by simp [readRecord]⟩
      · simp only [readRecord, if_neg ha, Option.map_eq_some_iff] at hr ⊢
        obtain ⟨v, hv, rfl⟩ := hr
        obtain ⟨⟨body, hb, rfl⟩, hs⟩ := ih hv
        refine ⟨⟨a :: body, ?_, rfl⟩, ?_⟩
        · exact List.not_mem_cons_of_ne_of_not_mem (Ne.symm ha) hb
        · exact congrArg (some a :: ·) hs

/-- An interruption drops the values before it, and only these. -/
theorem readRecord_interrupted {d : α} {w : List α} (hd : d ∉ w) (rest : List (Option α)) :
    readRecord d (w.map some ++ none :: rest) = (none, rest) := by
  rw [readRecord_append hd]
  rfl

/-- A read comes to its end when the delimiter stands before the next interruption. -/
theorem readRecord_eq_none_iff {d : α} {stream : List (Option α)} :
    (readRecord d stream).1 = none ↔ some d ∉ stream.takeWhile Option.isSome := by
  induction stream with
  | nil => simp [readRecord]
  | cons item rest ih =>
    cases item with
    | none => simp [readRecord]
    | some a =>
      by_cases ha : a = d
      · simp [readRecord, ha]
      · have hne : d ≠ a := Ne.symm ha
        simp [readRecord, ha, hne, ih]

/-- The record after an interruption is the one that would have been read without it exactly
when the interruption dropped nothing. -/
theorem readRecord_interrupted_iff {d : α} {w : List α} (hd : d ∉ w) (rest : List (Option α)) :
    (readRecord d rest).1 = (readRecord d (w.map some ++ rest)).1 ↔
      w = [] ∨ some d ∉ rest.takeWhile Option.isSome := by
  rw [readRecord_append hd, ← readRecord_eq_none_iff]
  cases (readRecord d rest).1 with
  | none => simp
  | some v => simp [eq_comm]

theorem readRecord_of_not_mem {d : α} {w : List α} (hd : d ∉ w) :
    readRecord d (w.map some) = (none, []) := by
  have hread := readRecord_append hd []
  rwa [List.append_nil] at hread

theorem readRecord_map_some (d : α) (w : List α) :
    (∃ raw rest, Terminated d raw ∧ w = raw ++ rest ∧
      readRecord d (w.map some) = (some raw, rest.map some)) ∨
    (d ∉ w ∧ readRecord d (w.map some) = (none, [])) := by
  by_cases hd : d ∈ w
  · obtain ⟨raw, rest, hraw, rfl⟩ := exists_terminated_prefix hd
    refine .inl ⟨raw, rest, hraw, rfl, ?_⟩
    rw [List.map_append, readRecord_terminated hraw]
  · exact .inr ⟨hd, readRecord_of_not_mem hd⟩

/-- Lists written back to back are read back one by one exactly when each of them is a record. -/
theorem readRecords_flatten_iff {d : α} (ws : List (List α)) (rest : List (Option α)) :
    (readRecords d ws.length (ws.flatten.map some ++ rest)).1 = ws.map some ↔
      ∀ w ∈ ws, Terminated d w := by
  induction ws with
  | nil => simp [readRecords]
  | cons w ws ih =>
    have hstream : ((w :: ws).flatten).map some ++ rest =
        w.map some ++ (ws.flatten.map some ++ rest) := by
      simp only [List.flatten_cons, List.map_append, List.append_assoc]
    rw [hstream, List.length_cons, List.map_cons, List.forall_mem_cons, ← ih]
    simp only [readRecords, List.cons.injEq]
    constructor
    · intro h
      obtain ⟨hw, hws⟩ := h
      obtain ⟨ht, hs⟩ := readRecord_eq_some hw
      rw [← List.append_cancel_left hs] at hws
      exact ⟨ht, hws⟩
    · intro h
      obtain ⟨ht, hws⟩ := h
      rw [readRecord_terminated ht]
      exact ⟨rfl, hws⟩

omit [DecidableEq α] in
theorem exists_terminated_pieces {d : α} {w : List α} (hw : w.getLast? = some d) :
    ∃ ps : List (List α), w = ps.flatten ∧ ∀ p ∈ ps, Terminated d p := by
  induction h : w.length using Nat.strongRecOn generalizing w with
  | _ n ih =>
    obtain ⟨p, u, hp, rfl⟩ := exists_terminated_prefix (List.mem_of_getLast? hw)
    by_cases hu : u = []
    · exact ⟨[p], by simp [hu], by simpa using hp⟩
    · have hlast : u.getLast? = some d := by rwa [List.getLast?_append_of_ne_nil p hu] at hw
      have hshort : u.length < n := by
        obtain ⟨body, -, hbody⟩ := hp
        rw [← h, hbody, List.length_append, List.length_append, List.length_singleton]
        omega
      obtain ⟨ps, hps, hall⟩ := ih u.length hshort hlast rfl
      exact ⟨p :: ps, by rw [List.flatten_cons, ← hps], List.forall_mem_cons.mpr ⟨hp, hall⟩⟩

end Spectrum.Foundation
