import Spectrum.Foundation.Reassembly

/-! Any stream given to a reassembling loop: when the records it cuts off do not depend on how the
stream was cut into chunks, and when they are pieces of the stream. -/
namespace Spectrum.Foundation

variable {α : Type*}

/-- The records are pieces of the stream, one behind the other, and `rest` is its end. -/
inductive Pieces : List (List α) → List α → List α → Prop
  | nil (gap rest : List α) : Pieces [] rest (gap ++ rest)
  | cons (gap r : List α) {rs : List (List α)} {rest stream : List α}
      (h : Pieces rs rest stream) : Pieces (r :: rs) rest (gap ++ (r ++ stream))

namespace Pieces

theorem gap {rs : List (List α)} {rest stream : List α} (h : Pieces rs rest stream)
    (g : List α) : Pieces rs rest (g ++ stream) := by
  cases h with
  | nil gap rest =>
    rw [← List.append_assoc]
    exact .nil (g ++ gap) rest
  | cons gap r h =>
    rw [← List.append_assoc]
    exact .cons (g ++ gap) r h

theorem more {rs : List (List α)} {rest stream : List α} (h : Pieces rs rest stream)
    (w : List α) : Pieces rs (rest ++ w) (stream ++ w) := by
  induction h with
  | nil gap rest =>
    rw [List.append_assoc]
    exact .nil gap (rest ++ w)
  | cons gap r h ih =>
    rw [List.append_assoc, List.append_assoc]
    exact .cons gap r ih

theorem append {rs rs' : List (List α)} {mid rest stream : List α} (h : Pieces rs mid stream)
    (h' : Pieces rs' rest mid) : Pieces (rs ++ rs') rest stream := by
  induction h with
  | nil gap => exact h'.gap gap
  | cons gap r h ih => exact .cons gap r (ih h')

theorem length_le {rs : List (List α)} {rest stream : List α} (h : Pieces rs rest stream) :
    rs.flatten.length + rest.length ≤ stream.length := by
  induction h with
  | nil gap rest =>
    rw [List.flatten_nil, List.length_nil, List.length_append]
    omega
  | cons gap r h ih =>
    rw [List.flatten_cons, List.length_append, List.length_append, List.length_append]
    omega

theorem eq_flatten {rs : List (List α)} {rest stream : List α} (h : Pieces rs rest stream)
    (hlength : stream.length ≤ rs.flatten.length) : stream = rs.flatten := by
  induction h with
  | nil gap rest => exact List.eq_nil_of_length_eq_zero (Nat.le_zero.mp hlength)
  | cons gap r h ih =>
    have hle := h.length_le
    rw [List.flatten_cons, List.length_append, List.length_append, List.length_append] at hlength
    have hgap : gap = [] := List.eq_nil_of_length_eq_zero (by omega)
    rw [hgap, List.nil_append, List.flatten_cons, ih (by omega)]

end Pieces

namespace Reassembler

variable (R : Reassembler α)

/-- `E` holds of buffers that the loop cannot tell apart; what a turn does to a buffer, it does to
the buffer with more at its end. -/
structure Rechunks (E : List α → List α → Prop) : Prop where
  refl (b : List α) : E b b
  trans {b c d : List α} : E b c → E c d → E b d
  append {b c : List α} (w : List α) : E b c → E (b ++ w) (c ++ w)
  drain {b c : List α} : E b c → (R.drain b).1 = (R.drain c).1 ∧ E (R.drain b).2 (R.drain c).2
  leave {b rest : List α} : R.turn b = .leave rest → E b rest
  again {b rest : List α} (w : List α) :
    R.turn b = .again rest → R.turn (b ++ w) = .again (rest ++ w)
  record {b r rest : List α} (w : List α) :
    R.turn b = .record r rest → R.turn (b ++ w) = .record r (rest ++ w)

variable {R} {E : List α → List α → Prop}

/-- The loop on a buffer, and on what it leaves with more at the end, is the loop on both. -/
theorem Rechunks.drain_append (hE : R.Rechunks E) (b w : List α) :
    (R.drain (b ++ w)).1 = (R.drain b).1 ++ (R.drain ((R.drain b).2 ++ w)).1 ∧
      E (R.drain (b ++ w)).2 (R.drain ((R.drain b).2 ++ w)).2 := by
  induction h : b.length using Nat.strongRecOn generalizing b with
  | _ n ih =>
    cases hturn : R.turn b with
    | leave rest =>
      rw [drain_leave hturn, List.nil_append]
      exact hE.drain (hE.append w (hE.leave hturn))
    | again rest =>
      rw [drain_again hturn, drain_again (hE.again w hturn)]
      exact ih rest.length (h ▸ R.again_length hturn) rest rfl
    | record r rest =>
      rw [drain_record hturn, drain_record (hE.record w hturn)]
      obtain ⟨hrecords, hrest⟩ := ih rest.length (h ▸ R.record_length hturn) rest rfl
      exact ⟨by rw [hrecords, List.cons_append], hrest⟩

theorem Rechunks.feed (hE : R.Rechunks E) {b : List α} (hb : R.turn b = .leave b)
    (chunks : List (List α)) :
    (Foundation.feed R.receive b chunks).1 = (R.drain (b ++ chunks.flatten)).1 ∧
      E (R.drain (b ++ chunks.flatten)).2 (Foundation.feed R.receive b chunks).2 := by
  induction chunks generalizing b with
  | nil =>
    rw [List.flatten_nil, List.append_nil, drain_leave hb]
    exact ⟨rfl, hE.refl b⟩
  | cons chunk chunks ih =>
    obtain ⟨hrecords, hrest⟩ := ih (turn_drain (b ++ chunk))
    obtain ⟨hsplit, hsame⟩ := hE.drain_append (b ++ chunk) chunks.flatten
    rw [List.flatten_cons, ← List.append_assoc]
    refine ⟨?_, hE.trans hsame hrest⟩
    rw [hsplit, ← hrecords]
    rfl

/-- A turn leaves an end of its buffer, and cuts its record off in front of it. -/
structure Cuts (R : Reassembler α) : Prop where
  leave {b rest : List α} : R.turn b = .leave rest → ∃ gap, b = gap ++ rest
  again {b rest : List α} : R.turn b = .again rest → ∃ gap, b = gap ++ rest
  record {b r rest : List α} : R.turn b = .record r rest → ∃ gap, b = gap ++ (r ++ rest)

theorem Cuts.drain (hR : R.Cuts) (b : List α) : Pieces (R.drain b).1 (R.drain b).2 b := by
  induction h : b.length using Nat.strongRecOn generalizing b with
  | _ n ih =>
    cases hturn : R.turn b with
    | leave rest =>
      obtain ⟨gap, hgap⟩ := hR.leave hturn
      rw [drain_leave hturn, hgap]
      exact .nil gap rest
    | again rest =>
      obtain ⟨gap, hgap⟩ := hR.again hturn
      have hrest := ih rest.length (h ▸ R.again_length hturn) rest rfl
      rw [drain_again hturn, hgap]
      exact hrest.gap gap
    | record r rest =>
      obtain ⟨gap, hgap⟩ := hR.record hturn
      have hrest := ih rest.length (h ▸ R.record_length hturn) rest rfl
      rw [drain_record hturn, hgap]
      exact .cons gap r hrest

/-- No byte is cut off twice or out of its place, however the stream comes. -/
theorem Cuts.feed (hR : R.Cuts) (b : List α) (chunks : List (List α)) :
    Pieces (Foundation.feed R.receive b chunks).1 (Foundation.feed R.receive b chunks).2
      (b ++ chunks.flatten) := by
  induction chunks generalizing b with
  | nil =>
    rw [List.flatten_nil, List.append_nil]
    exact .nil [] b
  | cons chunk chunks ih =>
    have hfirst := (hR.drain (b ++ chunk)).more chunks.flatten
    rw [List.flatten_cons, ← List.append_assoc]
    exact hfirst.append (ih (R.drain (b ++ chunk)).2)

/-- The buffer that the last turn of the loop starts with. -/
def last (R : Reassembler α) (buffer : List α) : List α :=
  match h : R.turn buffer with
  | .leave _ => buffer
  | .again rest =>
    have := R.again_length h
    last R rest
  | .record _ rest =>
    have := R.record_length h
    last R rest
termination_by buffer.length

theorem last_leave {b rest : List α} (h : R.turn b = .leave rest) : R.last b = b := by
  rw [last]
  split <;> simp_all

theorem last_again {b rest : List α} (h : R.turn b = .again rest) : R.last b = R.last rest := by
  rw [last]
  split <;> simp_all

theorem last_record {b r rest : List α} (h : R.turn b = .record r rest) :
    R.last b = R.last rest := by
  rw [last]
  split <;> simp_all

theorem drain_forall {P : List α → Prop}
    (hturn : ∀ b r rest, R.turn b = .record r rest → P r) (b : List α) :
    ∀ r ∈ (R.drain b).1, P r := by
  induction h : b.length using Nat.strongRecOn generalizing b with
  | _ n ih =>
    cases hcase : R.turn b with
    | leave rest =>
      rw [drain_leave hcase]
      simp
    | again rest =>
      rw [drain_again hcase]
      exact ih rest.length (h ▸ R.again_length hcase) rest rfl
    | record r rest =>
      rw [drain_record hcase]
      have hrest := ih rest.length (h ▸ R.record_length hcase) rest rfl
      exact List.forall_mem_cons.mpr ⟨hturn b r rest hcase, hrest⟩

theorem feed_forall {P : List α → Prop}
    (hturn : ∀ b r rest, R.turn b = .record r rest → P r) (b : List α)
    (chunks : List (List α)) : ∀ r ∈ (Foundation.feed R.receive b chunks).1, P r := by
  induction chunks generalizing b with
  | nil => simp [Foundation.feed]
  | cons chunk chunks ih =>
    have hfirst := drain_forall hturn (b ++ chunk)
    exact List.forall_mem_append.mpr ⟨hfirst, ih (R.drain (b ++ chunk)).2⟩

end Reassembler

end Spectrum.Foundation
