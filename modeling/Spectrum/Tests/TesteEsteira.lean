import Spectrum.Foundation.Checked
import Spectrum.Tests.Stream

/-! The callback of `tests/teste_esteira.cpp`. Its loop is that of `tests/test_all_commands.cpp`
without the second test for a minimum frame, behind the search for STX. -/
namespace Spectrum.Tests.TesteEsteira
open Foundation Utils

/-- `Tests.cutFrame` with checked accesses: the buffer may be shorter here. -/
def cutFrame (buffer : List UInt8) : Except Fault (Turn UInt8) := do
  let length ← readAt buffer 1
  let totalSize := length.toNat + 4
  if buffer.length < totalSize then pure (.leave buffer)
  else do
    let final ← readAt buffer (totalSize - 1)
    if final ≠ etx then pure (.again (buffer.drop 1))
    else pure (.record (buffer.take totalSize) (buffer.drop totalSize))

def turn (buffer : List UInt8) : Except Fault (Turn UInt8) :=
  if buffer.length < mcbMinFrameSize then pure (.leave buffer)
  else if buffer.head? ≠ some stx then
    let found := (buffer.drop 1).dropWhile (· ≠ stx)
    if found = [] then pure (.leave [])
    else cutFrame found
  else cutFrame buffer

theorem cutFrame_eq {buffer : List UInt8} (hlong : 2 ≤ buffer.length) :
    cutFrame buffer = .ok (Tests.cutFrame buffer) := by
  have hbyte := readAt_of_lt (v := buffer) (i := 1) (by omega) 0
  unfold cutFrame Tests.cutFrame
  rw [bind_of_ok hbyte]
  by_cases hshort : buffer.length < (buffer.getD 1 0).toNat + 4
  · simp only [if_pos hshort]
    rfl
  · have hfinal := readAt_of_lt (v := buffer) (i := (buffer.getD 1 0).toNat + 4 - 1) (by omega) 0
    simp only [if_neg hshort]
    rw [bind_of_ok hfinal]
    split <;> rfl

theorem turn_eq (buffer : List UInt8) : turn buffer =
    if buffer.length < mcbMinFrameSize then .ok (.leave buffer)
    else if resync buffer = [] then .ok (.leave [])
    else cutFrame (resync buffer) := by
  unfold turn
  by_cases hmin : buffer.length < mcbMinFrameSize
  · rw [if_pos hmin, if_pos hmin]
    rfl
  · rw [if_neg hmin, if_neg hmin]
    by_cases hhead : buffer.head? = some stx
    · have hne : resync buffer ≠ [] := by
        rw [resync_of_head hhead]
        intro hnil
        rw [hnil] at hhead
        cases hhead
      rw [if_neg (not_not.mpr hhead), if_neg hne, resync_of_head hhead]
    · rw [if_pos hhead, ← resync_of_not_head hhead]
      rfl

/-- The three kinds of turns by what the search for STX leaves: as many bytes as a frame needs, the
STX alone, or a few bytes. -/
theorem turn_cases (buffer : List UInt8) :
    turn buffer = .ok (Tests.turn buffer) ∨
      (mcbMinFrameSize ≤ buffer.length ∧ resync buffer = [stx] ∧
        Tests.turn buffer = .leave [stx] ∧ turn buffer = .error .outOfBounds) ∨
      (mcbMinFrameSize ≤ buffer.length ∧ 2 ≤ (resync buffer).length ∧
        (resync buffer).length < mcbMinFrameSize ∧ Tests.turn buffer = .leave (resync buffer) ∧
        turn buffer = .ok (Tests.cutFrame (resync buffer))) := by
  rw [turn_eq, Tests.turn_eq]
  by_cases hmin : buffer.length < mcbMinFrameSize
  · left
    rw [if_pos hmin, if_pos hmin]
  · rw [if_neg hmin, if_neg hmin]
    by_cases hlong : mcbMinFrameSize ≤ (resync buffer).length
    · left
      have htwo : 2 ≤ (resync buffer).length := by
        unfold mcbMinFrameSize at hlong
        omega
      have hne : resync buffer ≠ [] := List.ne_nil_of_length_pos (by omega)
      rw [if_neg hne, if_neg (not_lt.mpr hlong), cutFrame_eq htwo]
    · rw [if_pos (not_le.mp hlong)]
      match hfound : resync buffer with
      | [] =>
        left
        rfl
      | [b] =>
        right; left
        have hhead := head_resync (show resync buffer ≠ [] by simp [hfound])
        rw [hfound] at hhead
        have hb : b = stx := Option.some.inj hhead
        subst hb
        exact ⟨not_lt.mp hmin, rfl, rfl, rfl⟩
      | b :: c :: found =>
        right; right
        have htwo : 2 ≤ (b :: c :: found).length := by simp
        rw [hfound] at hlong
        exact ⟨not_lt.mp hmin, htwo, not_le.mp hlong, rfl, cutFrame_eq htwo⟩

theorem cutFrame_few {buffer : List UInt8} {t : Turn UInt8} (h : Tests.cutFrame buffer = t)
    (ht : ∀ rest, t ≠ .leave rest) (hfew : buffer.length < mcbMinFrameSize) :
    buffer.length = 4 ∧ buffer.getD 1 0 = 0 := by
  unfold mcbMinFrameSize at hfew
  unfold Tests.cutFrame at h
  simp only at h
  split at h
  · exact absurd h.symm (ht _)
  · next hwhole =>
    have hzero : (buffer.getD 1 0).toNat = 0 := by omega
    exact ⟨by omega, UInt8.toNat_inj.mp hzero⟩

theorem turn_few {buffer : List UInt8} (hfew : buffer.length < mcbMinFrameSize) :
    turn buffer = .ok (.leave buffer) := by
  rw [turn_eq, if_pos hfew]

theorem turn_length {buffer rest : List UInt8} {t : Turn UInt8} (h : turn buffer = .ok t)
    (ht : t = .again rest ∨ ∃ r, t = .record r rest) : rest.length < buffer.length := by
  rcases turn_cases buffer with hsame | ⟨-, -, -, hfault⟩ | ⟨hmin, -, hfew, -, hcut⟩
  · have hturn : Tests.turn buffer = t := Except.ok.inj (hsame.symm.trans h)
    rcases ht with rfl | ⟨r, rfl⟩
    · exact reassembler.again_length hturn
    · exact reassembler.record_length hturn
  · cases hfault.symm.trans h
  · have hturn : Tests.cutFrame (resync buffer) = t := Except.ok.inj (hcut.symm.trans h)
    have hle := resync_length_le buffer
    rcases ht with rfl | ⟨r, rfl⟩
    · rw [cutFrame_again hturn, List.length_drop]
      omega
    · obtain ⟨n, hn, -, rfl⟩ := cutFrame_record hturn
      rw [List.length_drop]
      omega

/-- The loop: the frames given to the decoder and what stays in `buffer`. -/
def drain (buffer : List UInt8) : Except Fault (List (List UInt8) × List UInt8) :=
  match h : turn buffer with
  | .error fault => .error fault
  | .ok (.leave rest) => .ok ([], rest)
  | .ok (.again rest) =>
    have := turn_length h (.inl rfl)
    drain rest
  | .ok (.record frame rest) =>
    have := turn_length h (.inr ⟨frame, rfl⟩)
    (drain rest).map fun (frames, rest) => (frame :: frames, rest)
termination_by buffer.length

def onMCBDataReceived (buffer incoming : List UInt8) :
    Except Fault (List (List UInt8) × List UInt8) := drain (buffer ++ incoming)

/-- The chunks of a connection given to the callback one after the other. -/
def received (buffer : List UInt8) :
    List (List UInt8) → Except Fault (List (List UInt8) × List UInt8)
  | [] => pure ([], buffer)
  | incoming :: chunks => do
    let (frames, rest) ← onMCBDataReceived buffer incoming
    let (frames', rest') ← received rest chunks
    pure (frames ++ frames', rest')

theorem drain_error {b : List UInt8} {fault : Fault} (h : turn b = .error fault) :
    drain b = .error fault := by
  rw [drain]
  split <;> simp_all

theorem drain_leave {b rest : List UInt8} (h : turn b = .ok (.leave rest)) :
    drain b = .ok ([], rest) := by
  rw [drain]
  split <;> simp_all

theorem drain_again {b rest : List UInt8} (h : turn b = .ok (.again rest)) :
    drain b = drain rest := by
  rw [drain]
  split <;> simp_all

theorem drain_record {b frame rest : List UInt8} (h : turn b = .ok (.record frame rest)) :
    drain b = (drain rest).map fun (frames, rest) => (frame :: frames, rest) := by
  rw [drain]
  split <;> simp_all

/-- At least five bytes, of which the search for STX leaves the STX alone. -/
def Stranded (buffer : List UInt8) : Prop :=
  mcbMinFrameSize ≤ buffer.length ∧ resync buffer = [stx]

/-- What this loop has done before the other, by the buffers of the other and its own: one turn on
four bytes. -/
inductive Ahead : List UInt8 → List (List UInt8) → List UInt8 → Prop
  | even (b : List UInt8) : Ahead b [] b
  | again {b rest : List UInt8} (hhead : b.head? = some stx) (hfour : b.length = 4)
      (hcut : Tests.cutFrame b = .again rest) : Ahead b [] rest
  | record {b frame rest : List UInt8} (hhead : b.head? = some stx) (hfour : b.length = 4)
      (hcut : Tests.cutFrame b = .record frame rest) : Ahead b [frame] rest

/-- Where this loop reads outside its buffer, the other ends with the STX alone; elsewhere they cut
the same frames. -/
theorem drain_agrees (b : List UInt8) :
    (Stranded (reassembler.last b) ∧ drain b = .error .outOfBounds) ∨
      (¬ Stranded (reassembler.last b) ∧ ∃ early rest,
        drain b = .ok ((reassembler.drain b).1 ++ early, rest) ∧
        Ahead (reassembler.drain b).2 early rest) := by
  induction hn : b.length using Nat.strongRecOn generalizing b with
  | _ n ih =>
    rcases turn_cases b with hsame | ⟨hmin, hstx, hother, hfault⟩ |
      ⟨hmin, htwo, hfew, hother, hcut⟩
    · cases hturn : reassembler.turn b with
      | leave rest =>
        have hleave : turn b = .ok (.leave rest) := hsame.trans (congrArg Except.ok hturn)
        right
        rw [Reassembler.last_leave hturn, Reassembler.drain_leave hturn, drain_leave hleave]
        refine ⟨?_, [], rest, rfl, .even rest⟩
        intro hstranded
        have hne : resync b ≠ [] := by simp [hstranded.2]
        rw [turn_eq, if_neg (not_lt.mpr hstranded.1), if_neg hne, hstranded.2] at hleave
        cases hleave
      | again rest =>
        have hagain : turn b = .ok (.again rest) := hsame.trans (congrArg Except.ok hturn)
        rw [Reassembler.last_again hturn, Reassembler.drain_again hturn, drain_again hagain]
        exact ih rest.length (hn ▸ reassembler.again_length hturn) rest rfl
      | record frame rest =>
        have hrecord : turn b = .ok (.record frame rest) :=
          hsame.trans (congrArg Except.ok hturn)
        rw [Reassembler.last_record hturn, Reassembler.drain_record hturn, drain_record hrecord]
        rcases ih rest.length (hn ▸ reassembler.record_length hturn) rest rfl with
          ⟨hstranded, herror⟩ | ⟨hnot, early, left, hok, hahead⟩
        · exact .inl ⟨hstranded, by rw [herror]; rfl⟩
        · exact .inr ⟨hnot, early, left, by rw [hok]; rfl, hahead⟩
    · left
      have hturn : reassembler.turn b = .leave [stx] := hother
      rw [Reassembler.last_leave hturn]
      exact ⟨⟨hmin, hstx⟩, drain_error hfault⟩
    · right
      have hturn : reassembler.turn b = .leave (resync b) := hother
      rw [Reassembler.last_leave hturn, Reassembler.drain_leave hturn]
      have hne : resync b ≠ [] := List.ne_nil_of_length_pos (by omega)
      refine ⟨fun hstranded => ?_, ?_⟩
      · rw [hstranded.2] at htwo
        exact absurd htwo (by decide)
      · have hhead := head_resync hne
        cases hshort : Tests.cutFrame (resync b) with
        | leave rest =>
          have hrest := cutFrame_leave hshort
          rw [hshort] at hcut
          rw [drain_leave hcut, hrest]
          exact ⟨[], _, rfl, .even _⟩
        | again rest =>
          obtain ⟨hfour, -⟩ := cutFrame_few hshort (by simp) hfew
          have hthree : rest.length < mcbMinFrameSize := by
            rw [cutFrame_again hshort, List.length_drop]
            omega
          rw [hshort] at hcut
          rw [drain_again hcut, drain_leave (turn_few hthree)]
          exact ⟨[], _, rfl, .again hhead hfour hshort⟩
        | record frame rest =>
          obtain ⟨hfour, -⟩ := cutFrame_few hshort (by simp) hfew
          have hnone : rest.length < mcbMinFrameSize := by
            obtain ⟨n, -, -, hrest⟩ := cutFrame_record hshort
            rw [hrest, List.length_drop]
            omega
          rw [hshort] at hcut
          rw [drain_record hcut, drain_leave (turn_few hnone)]
          exact ⟨[frame], _, rfl, .record hhead hfour hshort⟩

theorem turn_four {b incoming : List UInt8} (hhead : b.head? = some stx) (hfour : b.length = 4)
    (hmore : incoming ≠ []) : Tests.turn (b ++ incoming) = Tests.cutFrame (b ++ incoming) := by
  have hne : b ≠ [] := List.ne_nil_of_length_pos (by omega)
  have hhead' : (b ++ incoming).head? = some stx := by
    rw [List.head?_append_of_ne_nil b hne, hhead]
  have hpos := List.length_pos_iff.mpr hmore
  have hmin : ¬ (b ++ incoming).length < mcbMinFrameSize := by
    rw [List.length_append]
    unfold mcbMinFrameSize
    omega
  rw [Tests.turn_eq, resync_of_head hhead', if_neg hmin, if_neg hmin]

theorem Ahead.drain {b e : List UInt8} {early : List (List UInt8)} (h : Ahead b early e)
    (incoming : List UInt8) :
    (Stranded (reassembler.last (b ++ incoming)) ∧
        TesteEsteira.drain (e ++ incoming) = .error .outOfBounds) ∨
      (¬ Stranded (reassembler.last (b ++ incoming)) ∧ ∃ frames early' rest,
        TesteEsteira.drain (e ++ incoming) = .ok (frames, rest) ∧
        early ++ frames = (reassembler.drain (b ++ incoming)).1 ++ early' ∧
        Ahead (reassembler.drain (b ++ incoming)).2 early' rest) := by
  -- without a byte more, both stand where they are
  have hstay (hfour : b.length = 4) (he : e.length < mcbMinFrameSize) :
      ¬ Stranded (reassembler.last (b ++ [])) ∧ ∃ frames early' rest,
        TesteEsteira.drain (e ++ []) = .ok (frames, rest) ∧
        early ++ frames = (reassembler.drain (b ++ [])).1 ++ early' ∧
        Ahead (reassembler.drain (b ++ [])).2 early' rest := by
    have hturn : reassembler.turn b = .leave b := by
      show Tests.turn b = _
      rw [Tests.turn_eq, if_pos]
      unfold mcbMinFrameSize
      omega
    rw [List.append_nil, List.append_nil, Reassembler.last_leave hturn,
      Reassembler.drain_leave hturn, drain_leave (turn_few he)]
    refine ⟨fun hstranded => ?_, [], early, e, rfl, by simp, h⟩
    have hmin := hstranded.1
    rw [hfour] at hmin
    exact absurd hmin (by decide)
  cases h with
  | even =>
    rcases drain_agrees (b ++ incoming) with hfault | ⟨hnot, early', rest, hok, hahead⟩
    · exact .inl hfault
    · exact .inr ⟨hnot, _, early', rest, hok, rfl, hahead⟩
  | again hhead hfour hcut =>
    by_cases hmore : incoming = []
    · subst hmore
      have he : e.length < mcbMinFrameSize := by
        rw [cutFrame_again hcut, List.length_drop, hfour]
        decide
      exact .inr (hstay hfour he)
    · have hturn : reassembler.turn (b ++ incoming) = .again (e ++ incoming) :=
        (turn_four hhead hfour hmore).trans ((cutFrame_append hcut (by simp) incoming).1 e rfl)
      rw [Reassembler.last_again hturn, Reassembler.drain_again hturn]
      rcases drain_agrees (e ++ incoming) with hfault | ⟨hnot, early', rest, hok, hahead⟩
      · exact .inl hfault
      · exact .inr ⟨hnot, _, early', rest, hok, rfl, hahead⟩
  | record hhead hfour hcut =>
    rename_i frame
    by_cases hmore : incoming = []
    · subst hmore
      have he : e.length < mcbMinFrameSize := by
        obtain ⟨n, hn, -, hrest⟩ := cutFrame_record hcut
        rw [hrest, List.length_drop, hfour]
        unfold mcbMinFrameSize
        omega
      exact .inr (hstay hfour he)
    · have hturn : reassembler.turn (b ++ incoming) = .record frame (e ++ incoming) :=
        (turn_four hhead hfour hmore).trans
          ((cutFrame_append hcut (by simp) incoming).2 frame e rfl)
      rw [Reassembler.last_record hturn, Reassembler.drain_record hturn]
      rcases drain_agrees (e ++ incoming) with hfault | ⟨hnot, early', rest, hok, hahead⟩
      · exact .inl hfault
      · exact .inr ⟨hnot, _, early', rest, hok, rfl, hahead⟩

/-- One of the chunks strands the other callback, which has `buffer` before the first. -/
def Strands (buffer : List UInt8) (chunks : List (List UInt8)) : Prop :=
  ∃ before chunk after, chunks = before ++ chunk :: after ∧
    Stranded (reassembler.last ((feed Tests.onMCBDataReceived buffer before).2 ++ chunk))

theorem strands_cons {buffer chunk : List UInt8} {chunks : List (List UInt8)} :
    Strands buffer (chunk :: chunks) ↔ Stranded (reassembler.last (buffer ++ chunk)) ∨
      Strands (Tests.onMCBDataReceived buffer chunk).2 chunks := by
  constructor
  · rintro ⟨before, c, after, hsplit, hstranded⟩
    cases before with
    | nil =>
      obtain ⟨rfl, -⟩ := List.cons.inj hsplit
      exact .inl hstranded
    | cons first before =>
      obtain ⟨rfl, hchunks⟩ := List.cons.inj hsplit
      exact .inr ⟨before, c, after, hchunks, hstranded⟩
  · rintro (hstranded | ⟨before, c, after, rfl, hstranded⟩)
    · exact ⟨[], chunk, chunks, rfl, hstranded⟩
    · exact ⟨chunk :: before, c, after, rfl, hstranded⟩

theorem received_agrees {b e : List UInt8} {early : List (List UInt8)} (h : Ahead b early e)
    (chunks : List (List UInt8)) :
    (Strands b chunks ∧ received e chunks = .error .outOfBounds) ∨
      (¬ Strands b chunks ∧ ∃ frames early' rest, received e chunks = .ok (frames, rest) ∧
        early ++ frames = (feed Tests.onMCBDataReceived b chunks).1 ++ early' ∧
        Ahead (feed Tests.onMCBDataReceived b chunks).2 early' rest) := by
  induction chunks generalizing b e early with
  | nil =>
    refine .inr ⟨?_, [], early, e, rfl, by simp [feed], h⟩
    rintro ⟨before, chunk, after, hsplit, -⟩
    exact absurd hsplit.symm (by simp)
  | cons incoming chunks ih =>
    rw [strands_cons]
    rcases h.drain incoming with ⟨hstranded, herror⟩ | ⟨hnot, frames, early', rest, hok, hframes,
      hahead⟩
    · refine .inl ⟨.inl hstranded, ?_⟩
      show TesteEsteira.drain (e ++ incoming) >>= _ = _
      rw [herror]
      rfl
    · have hnext : received e (incoming :: chunks) =
          (received rest chunks).map fun (frames', rest') => (frames ++ frames', rest') := by
        show TesteEsteira.drain (e ++ incoming) >>= _ = _
        rw [hok]
        show (received rest chunks >>= _) = _
        cases received rest chunks <;> rfl
      rcases ih hahead with ⟨hstrands, herror⟩ | ⟨hclear, frames', early'', rest', hok', hframes',
        hahead'⟩
      · refine .inl ⟨.inr hstrands, ?_⟩
        rw [hnext, herror]
        rfl
      · refine .inr ⟨fun hor => hor.elim hnot hclear, frames ++ frames', early'', rest', ?_, ?_,
          hahead'⟩
        · rw [hnext, hok']
          rfl
        · rw [← List.append_assoc, hframes, List.append_assoc, hframes', ← List.append_assoc]
          rfl

/-- A frame that comes early has no command: STX, a length byte of zero, one more byte and ETX. -/
theorem Ahead.early {b e : List UInt8} {early : List (List UInt8)} (h : Ahead b early e) :
    early = [] ∨ ∃ x, early = [[stx, 0x00, x, etx]] := by
  cases h with
  | even => exact .inl rfl
  | again => exact .inl rfl
  | record hhead hfour hcut =>
    right
    have hfew : b.length < mcbMinFrameSize := by
      rw [hfour]
      decide
    obtain ⟨-, hzero⟩ := cutFrame_few hcut (by simp) hfew
    match b, hfour, hhead, hzero, hcut with
    | [a, l, x, z], _, hhead, hzero, hcut =>
      have ha : a = stx := Option.some.inj hhead
      have hl : l = 0 := hzero
      subst ha hl
      have hwhole : Tests.cutFrame [stx, 0x00, x, z] =
          if z ≠ etx then .again [0x00, x, z] else .record [stx, 0x00, x, z] [] := rfl
      rw [hwhole] at hcut
      split at hcut
      · cases hcut
      · next hz =>
        cases hcut
        exact ⟨x, by rw [not_not.mp hz]⟩

/-- On any chunks, the callback reads outside its buffer exactly when a chunk strands the callback
that has the second test: with four bytes or more of garbage and an STX behind them at its end. Up
to there the decoder gets the same frames from both, but for one without a command that may come a
chunk early. -/
theorem onMCBDataReceived_agrees (chunks : List (List UInt8)) :
    (Strands [] chunks ∧ received [] chunks = .error .outOfBounds) ∨
      (¬ Strands [] chunks ∧ ∃ early rest,
        received [] chunks = .ok ((feed Tests.onMCBDataReceived [] chunks).1 ++ early, rest) ∧
        (early = [] ∨ ∃ x, early = [[stx, 0x00, x, etx]])) := by
  rcases received_agrees (.even []) chunks with hfault | ⟨hnot, frames, early, rest, hok, hframes,
    hahead⟩
  · exact .inl hfault
  · rw [List.nil_append] at hframes
    rw [hframes] at hok
    exact .inr ⟨hnot, early, rest, hok, hahead.early⟩

theorem last_of_few {b : List UInt8} (hfew : (resync b).length < mcbMinFrameSize) :
    reassembler.last b = b := by
  by_cases hmin : b.length < mcbMinFrameSize
  · have hturn : reassembler.turn b = .leave b := by
      show Tests.turn b = _
      rw [Tests.turn_eq, if_pos hmin]
    exact Reassembler.last_leave hturn
  · have hturn : reassembler.turn b = .leave (resync b) := by
      show Tests.turn b = _
      rw [Tests.turn_eq, if_neg hmin, if_pos hfew]
    exact Reassembler.last_leave hturn

theorem Stranded.last_longer {b c : List UInt8} (hresync : resync b = resync c)
    (hlength : b.length ≤ c.length) (h : Stranded (reassembler.last b)) :
    Stranded (reassembler.last c) := by
  by_cases hfew : (resync b).length < mcbMinFrameSize
  · rw [last_of_few hfew] at h
    rw [last_of_few (hresync ▸ hfew)]
    exact ⟨h.1.trans hlength, hresync ▸ h.2⟩
  · have hturn := turn_of_many hfew
    have hturn' : reassembler.turn c = Tests.cutFrame (resync b) :=
      hresync ▸ turn_of_many (hresync ▸ hfew)
    cases hcut : Tests.cutFrame (resync b) with
    | leave rest =>
      rw [Reassembler.last_leave (hturn.trans hcut)] at h
      rw [h.2] at hfew
      exact absurd (by decide) hfew
    | again rest =>
      rw [Reassembler.last_again (hturn.trans hcut)] at h
      rw [Reassembler.last_again (hturn'.trans hcut)]
      exact h
    | record frame rest =>
      rw [Reassembler.last_record (hturn.trans hcut)] at h
      rw [Reassembler.last_record (hturn'.trans hcut)]
      exact h

theorem Stranded.undrain {b incoming : List UInt8}
    (h : Stranded (reassembler.last ((reassembler.drain b).2 ++ incoming))) :
    Stranded (reassembler.last (b ++ incoming)) := by
  induction hn : b.length using Nat.strongRecOn generalizing b with
  | _ n ih =>
    cases hturn : reassembler.turn b with
    | leave rest =>
      rw [Reassembler.drain_leave hturn] at h
      rcases turn_leave hturn with rfl | rfl
      · exact h
      · have hle := resync_length_le b
        refine h.last_longer (resync_resync_append b incoming) ?_
        rw [List.length_append, List.length_append]
        omega
    | again rest =>
      rw [Reassembler.drain_again hturn] at h
      rw [Reassembler.last_again (rechunks.again incoming hturn)]
      exact ih rest.length (hn ▸ reassembler.again_length hturn) h rfl
    | record frame rest =>
      rw [Reassembler.drain_record hturn] at h
      rw [Reassembler.last_record (rechunks.record incoming hturn)]
      exact ih rest.length (hn ▸ reassembler.record_length hturn) h rfl

theorem Stranded.unfeed {b chunk : List UInt8} {before : List (List UInt8)}
    (h : Stranded (reassembler.last ((feed Tests.onMCBDataReceived b before).2 ++ chunk))) :
    Stranded (reassembler.last (b ++ (before.flatten ++ chunk))) := by
  induction before generalizing b with
  | nil => exact h
  | cons incoming before ih =>
    have hlater := ih (b := (reassembler.drain (b ++ incoming)).2) h
    have hfirst := hlater.undrain
    rwa [List.append_assoc, ← List.append_assoc incoming, ← List.flatten_cons] at hfirst

/-- A stream can be cut so that a chunk strands the loop exactly when one of its prefixes would. -/
theorem strands_iff_part (stream : List UInt8) :
    (∃ chunks : List (List UInt8), chunks.flatten = stream ∧ Strands [] chunks) ↔
      ∃ part, part <+: stream ∧ Stranded (reassembler.last part) := by
  constructor
  · rintro ⟨chunks, rfl, before, chunk, after, rfl, hstranded⟩
    refine ⟨before.flatten ++ chunk, ⟨after.flatten, ?_⟩, hstranded.unfeed⟩
    rw [List.flatten_append, List.flatten_cons, List.append_assoc]
  · rintro ⟨part, ⟨rest, rfl⟩, hstranded⟩
    exact ⟨[part, rest], by simp, [], part, [rest], rfl, hstranded⟩

theorem turn_bytes (s : Segment) (more : List UInt8) :
    reassembler.turn (s.bytes ++ more) = .record s.frame more := by
  have hlen := s.frame_length
  have hne : s.frame ≠ [] := List.ne_nil_of_length_pos (by omega)
  have hhead : (s.frame ++ more).head? = some stx := by
    rw [List.head?_append_of_ne_nil _ hne, s.head_frame]
  have hresync : resync (s.bytes ++ more) = s.frame ++ more := by
    rw [Segment.bytes, List.append_assoc, resync_garbage s.quiet, resync_of_head hhead]
  have hmin : mcbMinFrameSize ≤ (s.frame ++ more).length := by
    rw [List.length_append]
    unfold mcbMinFrameSize
    omega
  rw [turn_of_many (hresync ▸ not_lt.mpr hmin), hresync]
  rcases s.cutFrame_eq hmin (List.append_nil _) with ⟨hshort, -⟩ | ⟨left, hleft, hcut⟩
  · rw [List.length_append] at hshort
    omega
  · rw [List.append_nil] at hleft
    rw [hcut, hleft]

theorem resync_part {s : Segment} {part : List UInt8} (hpart : part <+: s.bytes) :
    resync part <+: s.frame ∧ part.length ≤ s.garbage.length + (resync part).length := by
  rcases List.prefix_or_prefix_of_prefix hpart (List.prefix_append s.garbage s.frame) with
    hinside | ⟨front, rfl⟩
  · have hquiet : stx ∉ part := fun hmem => s.quiet (hinside.subset hmem)
    rw [resync_quiet hquiet]
    exact ⟨List.nil_prefix, hinside.length_le⟩
  · have hfront : front <+: s.frame := (List.prefix_append_right_inj _).mp hpart
    have hfound : resync (s.garbage ++ front) = front := by
      rw [resync_garbage s.quiet]
      cases front with
      | nil => rfl
      | cons b front =>
        obtain ⟨rest, hrest⟩ := hfront
        have hhead := s.head_frame
        rw [← hrest] at hhead
        exact resync_of_head hhead
    rw [hfound]
    exact ⟨hfront, (List.length_append).le⟩

theorem last_nil : reassembler.last [] = [] := last_of_few (by decide)

/-- A part of a segment strands the loop only when it is an STX behind four bytes of garbage. -/
theorem stranded_part {s : Segment} {part : List UInt8} (hpart : part <+: s.bytes)
    (h : Stranded (reassembler.last part)) : 4 ≤ s.garbage.length := by
  obtain ⟨⟨rest, hrest⟩, hlength⟩ := resync_part hpart
  by_cases hfew : (resync part).length < mcbMinFrameSize
  · rw [last_of_few hfew] at h
    obtain ⟨hmin, hstx⟩ := h
    rw [hstx, List.length_singleton] at hlength
    unfold mcbMinFrameSize at hmin
    omega
  · have hturn := turn_of_many hfew
    have hwhole : resync part ++ rest = s.frame ++ [] := by rw [hrest, List.append_nil]
    rcases s.cutFrame_eq (not_lt.mp hfew) hwhole with ⟨-, hwait⟩ | ⟨more, hmore, hcut⟩
    · rw [Reassembler.last_leave (hturn.trans hwait)] at h
      rw [h.2] at hfew
      exact absurd (by decide) hfew
    · obtain ⟨hnil, -⟩ := List.append_eq_nil_iff.mp hmore.symm
      rw [Reassembler.last_record (hturn.trans hcut), hnil, last_nil] at h
      exact absurd h.1 (by decide)

theorem exists_garbage {segments : List Segment} {part : List UInt8}
    (hpart : part <+: (segments.map Segment.bytes).flatten)
    (h : Stranded (reassembler.last part)) : ∃ s ∈ segments, 4 ≤ s.garbage.length := by
  induction segments generalizing part with
  | nil =>
    have hnil : part = [] := List.prefix_nil.mp hpart
    rw [hnil, last_nil] at h
    exact absurd h.1 (by decide)
  | cons s segments ih =>
    rw [List.map_cons, List.flatten_cons] at hpart
    rcases List.prefix_or_prefix_of_prefix hpart (List.prefix_append _ _) with
      hinside | ⟨more, rfl⟩
    · exact ⟨s, List.mem_cons_self, stranded_part hinside h⟩
    · have hmore := (List.prefix_append_right_inj _).mp hpart
      rw [Reassembler.last_record (turn_bytes s more)] at h
      obtain ⟨s', hs', hgarbage⟩ := ih hmore h
      exact ⟨s', List.mem_cons_of_mem s hs', hgarbage⟩

theorem last_segments (segments : List Segment) (tail : List UInt8) :
    reassembler.last ((segments.map Segment.bytes).flatten ++ tail) = reassembler.last tail := by
  induction segments with
  | nil => rfl
  | cons s segments ih =>
    rw [List.map_cons, List.flatten_cons, List.append_assoc,
      Reassembler.last_record (turn_bytes s _), ih]

theorem stranded_garbage (before : List Segment) {s : Segment} (hs : 4 ≤ s.garbage.length) :
    Stranded (reassembler.last
      ((before.map Segment.bytes).flatten ++ (s.garbage ++ [stx]))) := by
  have hresync : resync (s.garbage ++ [stx]) = [stx] := resync_garbage s.quiet [stx]
  rw [last_segments, last_of_few (by rw [hresync]; decide)]
  refine ⟨?_, hresync⟩
  rw [List.length_append, List.length_singleton]
  unfold mcbMinFrameSize
  omega

/-- Of frames with garbage in front of them, the decoder gets all, in order and however they are cut
into chunks, exactly when nowhere four bytes of garbage stand together; else there is a cut for which
the callback reads outside its buffer. -/
theorem received_exact_iff (segments : List Segment) :
    (∀ chunks : List (List UInt8), chunks.flatten = (segments.map Segment.bytes).flatten →
      received [] chunks = .ok (segments.map Segment.frame, [])) ↔
      ∀ s ∈ segments, s.garbage.length < 4 := by
  constructor
  · intro hexact s hs
    by_contra hfour
    obtain ⟨before, after, rfl⟩ := List.append_of_mem hs
    have hstart : (before.map Segment.bytes).flatten ++ (s.garbage ++ [stx]) <+:
        ((before ++ s :: after).map Segment.bytes).flatten := by
      have hframe : s.frame = [stx] ++ s.frame.tail := List.eq_cons_of_mem_head? s.head_frame
      refine ⟨s.frame.tail ++ (after.map Segment.bytes).flatten, ?_⟩
      rw [List.map_append, List.flatten_append, List.map_cons, List.flatten_cons, Segment.bytes,
        List.append_assoc, List.append_assoc, ← List.append_assoc [stx], ← hframe,
        List.append_assoc]
    obtain ⟨chunks, hchunks, hstrands⟩ := (strands_iff_part _).mpr
      ⟨_, hstart, stranded_garbage before (not_lt.mp hfour)⟩
    rcases received_agrees (.even []) chunks with ⟨-, herror⟩ | ⟨hnot, -⟩
    · cases herror.symm.trans (hexact chunks hchunks)
    · exact hnot hstrands
  · intro hfew chunks hchunks
    have hnil : reassembler.turn [] = .leave [] := rfl
    have hother : feed Tests.onMCBDataReceived [] chunks = (segments.map Segment.frame, []) :=
      follows_pending.feed_eq hnil (fun _ _ hturn h => h.done hturn) ⟨segments, rfl, hchunks⟩
    rcases received_agrees (.even []) chunks with
      ⟨hstrands, -⟩ | ⟨-, frames, early, rest, hok, hframes, hahead⟩
    · obtain ⟨part, hpart, hstranded⟩ := (strands_iff_part _).mp ⟨chunks, hchunks, hstrands⟩
      obtain ⟨s, hs, hgarbage⟩ := exists_garbage hpart hstranded
      have hless := hfew s hs
      omega
    · rw [hother] at hframes hahead
      cases hahead with
      | even =>
        rw [List.nil_append, List.append_nil] at hframes
        rw [hok, hframes]
      | again hhead => cases hhead
      | record hhead => cases hhead

end Spectrum.Tests.TesteEsteira
