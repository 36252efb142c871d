import Spectrum.Foundation.Strip
import Mathlib.Data.List.Basic

/-! Texts in answers of the board (`utils/translator/response_translator.cpp`). A `std::string` is
the list of its bytes. -/
namespace Spectrum.Utils
open Foundation

/-- The bytes of a string literal that a `const char *` argument stands for. -/
def cString (literal : List UInt8) : List UInt8 := literal.takeWhile (· ≠ 0)

/-- `" \r\n\t\0"`. -/
def trimSet : List UInt8 := cString [0x20, 0x0D, 0x0A, 0x09, 0x00]

/-- `s.find_first_not_of(set)`; `none` is `npos`. -/
def findFirstNotOf (s set : List UInt8) : Option ℕ := s.findIdx? (· ∉ set)

/-- `s.find_last_not_of(set)`. -/
def findLastNotOf (s set : List UInt8) : Option ℕ :=
  (s.reverse.findIdx? (· ∉ set)).map (s.length - 1 - ·)

def substr (s : List UInt8) (pos count : ℕ) : List UInt8 := (s.drop pos).take count

def trim (s : List UInt8) : List UInt8 :=
  match findFirstNotOf s trimSet with
  | none => []
  | some first =>
    match findLastNotOf s trimSet with
    -- not reached: the first such byte is there to be found
    | none => s.drop first
    | some last => substr s first (last - first + 1)

/-- The loop of both overloads, with `out` as far as it is written. -/
def copyText (out : List UInt8) : List UInt8 → List UInt8
  | [] => out
  | b :: data => if b = 0 then out else copyText (out ++ [b]) data

namespace ResponseTranslator

def asciiToString (data : List UInt8) : List UInt8 := trim (copyText [] data)

/-- The overload for `std::array<uint8_t, 15>`. -/
def asciiToStringArray (data : Vector UInt8 15) : List UInt8 := trim (copyText [] data.toList)

end ResponseTranslator

theorem trimSet_eq : trimSet = [0x20, 0x0D, 0x0A, 0x09] := by decide

theorem copyText_eq (out data : List UInt8) :
    copyText out data = out ++ data.takeWhile (· ≠ 0) := by
  induction data generalizing out with
  | nil => simp [copyText]
  | cons b data ih =>
    by_cases hb : b = 0
    · simp [copyText, hb]
    · simp [copyText, hb, ih]

theorem findFirstNotOf_eq {set lead rest : List UInt8} {b : UInt8} (hlead : ∀ a ∈ lead, a ∈ set)
    (hb : b ∉ set) : findFirstNotOf (lead ++ b :: rest) set = some lead.length := by
  have hnone : lead.findIdx? (· ∉ set) = none := by
    rw [List.findIdx?_eq_none_iff]
    intro a ha
    simpa using hlead a ha
  unfold findFirstNotOf
  rw [List.findIdx?_append, hnone, List.findIdx?_cons]
  simp [hb]

theorem findLastNotOf_eq {set init trail : List UInt8} {b : UInt8} (htrail : ∀ a ∈ trail, a ∈ set)
    (hb : b ∉ set) : findLastNotOf (init ++ [b] ++ trail) set = some init.length := by
  have hreverse : (init ++ [b] ++ trail).reverse = trail.reverse ++ b :: init.reverse := by simp
  have hfirst : findFirstNotOf (trail.reverse ++ b :: init.reverse) set =
      some trail.reverse.length :=
    findFirstNotOf_eq (fun a ha => htrail a (List.mem_reverse.mp ha)) hb
  unfold findFirstNotOf at hfirst
  unfold findLastNotOf
  rw [hreverse, hfirst, Option.map_some]
  congr 1
  simp only [List.length_append, List.length_cons, List.length_nil, List.length_reverse]
  omega

theorem trim_of_blank {s : List UInt8} (hs : ∀ a ∈ s, a ∈ trimSet) : trim s = [] := by
  have hnone : findFirstNotOf s trimSet = none := by
    unfold findFirstNotOf
    rw [List.findIdx?_eq_none_iff]
    intro a ha
    simpa using hs a ha
  unfold trim
  rw [hnone]

theorem trim_of_split {lead rest init trail : List UInt8} {b e : UInt8}
    (hlead : ∀ a ∈ lead, a ∈ trimSet) (hb : b ∉ trimSet) (he : e ∉ trimSet)
    (htrail : ∀ a ∈ trail, a ∈ trimSet) (htext : b :: rest = init ++ [e]) :
    trim (lead ++ (init ++ [e]) ++ trail) = init ++ [e] := by
  have hfront : findFirstNotOf (lead ++ (init ++ [e]) ++ trail) trimSet = some lead.length := by
    rw [← htext, List.append_assoc, List.cons_append]
    exact findFirstNotOf_eq hlead hb
  have hback : findLastNotOf (lead ++ (init ++ [e]) ++ trail) trimSet =
      some (lead ++ init).length := by
    rw [← List.append_assoc]
    exact findLastNotOf_eq htrail he
  have hcount : (lead ++ init).length - lead.length + 1 = (init ++ [e]).length := by
    simp only [List.length_append, List.length_cons, List.length_nil]
    omega
  unfold trim
  simp only [hfront, hback, hcount]
  unfold substr
  rw [List.append_assoc, List.drop_left, List.take_left]

/-- The two searches and the substring between them take off the runs at both ends. -/
theorem trim_eq_strip (s : List UInt8) : trim s = strip (· ∈ trimSet) s := by
  by_cases hnil : strip (· ∈ trimSet) s = []
  · have hall := strip_eq_nil_iff.mp hnil
    rw [hnil]
    exact trim_of_blank fun a ha => by simpa using hall a ha
  · obtain ⟨b, rest, hfirst⟩ := List.exists_cons_of_ne_nil hnil
    obtain ⟨init, e, hlast⟩ : ∃ init e, strip (· ∈ trimSet) s = init ++ [e] :=
      ⟨_, _, (List.dropLast_append_getLast hnil).symm⟩
    have hb : b ∉ trimSet := by
      have hwanted := head_strip (p := (· ∈ trimSet)) (l := s) (a := b) (by rw [hfirst]; rfl)
      simpa using hwanted
    have he : e ∉ trimSet := by
      have hwanted := getLast_strip (p := (· ∈ trimSet)) (l := s) (a := e) (by simp [hlast])
      simpa using hwanted
    have hlead : ∀ a ∈ s.takeWhile (· ∈ trimSet), a ∈ trimSet := by
      intro a ha
      simpa using List.mem_takeWhile_imp ha
    have htrail : ∀ a ∈ (s.dropWhile (· ∈ trimSet)).rtakeWhile (· ∈ trimSet), a ∈ trimSet := by
      intro a ha
      simpa using List.mem_rtakeWhile_imp ha
    have htrim := trim_of_split hlead hb he htrail (hfirst.symm.trans hlast)
    rwa [← hlast, strip_split] at htrim

namespace ResponseTranslator

theorem asciiToString_eq (data : List UInt8) :
    asciiToString data = strip (· ∈ trimSet) (data.takeWhile (· ≠ 0)) := by
  unfold asciiToString
  rw [trim_eq_strip, copyText_eq, List.nil_append]

theorem ne_zero_of_mem_asciiToString {data : List UInt8} {b : UInt8}
    (hb : b ∈ asciiToString data) : b ≠ 0 := by
  rw [asciiToString_eq] at hb
  simpa using List.mem_takeWhile_imp (mem_of_mem_strip hb)

theorem asciiToString_append_zero (w x : List UInt8) :
    asciiToString (w ++ 0 :: x) = asciiToString w := by
  have htext : (w ++ 0 :: x).takeWhile (· ≠ 0) = w.takeWhile (· ≠ 0) := by
    induction w with
    | nil => simp
    | cons b w ih =>
      by_cases hb : b = 0
      · simp [hb]
      · rw [List.cons_append, List.takeWhile_cons_of_pos (by simpa using hb), ih,
          List.takeWhile_cons_of_pos (by simpa using hb)]
  rw [asciiToString_eq, asciiToString_eq, htext]

theorem asciiToString_asciiToString (data : List UInt8) :
    asciiToString (asciiToString data) = asciiToString data := by
  have htext : (asciiToString data).takeWhile (· ≠ 0) = asciiToString data := by
    rw [List.takeWhile_eq_self_iff]
    intro b hb
    simpa using ne_zero_of_mem_asciiToString hb
  rw [asciiToString_eq (asciiToString data), htext, asciiToString_eq, strip_strip]

/-- What the texts are: the bytes in front of the first zero without the blanks at both ends. -/
theorem asciiToString_spec (data : List UInt8) :
    asciiToString data =
        strip (· ∈ [0x20, 0x0D, 0x0A, 0x09]) (data.takeWhile (· ≠ 0)) ∧
      0 ∉ asciiToString data ∧
      (∀ b, (asciiToString data).head? = some b ∨ (asciiToString data).getLast? = some b →
        b ∉ [0x20, 0x0D, 0x0A, 0x09]) ∧
      (∀ w x y, data = w ++ 0 :: x → asciiToString (w ++ 0 :: y) = asciiToString data) ∧
      asciiToString (asciiToString data) = asciiToString data ∧
      ∀ array : Vector UInt8 15, array.toList = data →
        asciiToStringArray array = asciiToString data := by
  refine ⟨?_, ?_, ?_, ?_, asciiToString_asciiToString data, ?_⟩
  · rw [asciiToString_eq, trimSet_eq]
  · exact fun h => ne_zero_of_mem_asciiToString h rfl
  · intro b hb
    rw [← trimSet_eq]
    rw [asciiToString_eq] at hb
    rcases hb with hhead | hlast
    · simpa using head_strip hhead
    · simpa using getLast_strip hlast
  · intro w x y hdata
    rw [hdata, asciiToString_append_zero, asciiToString_append_zero]
  · intro array harray
    unfold asciiToStringArray asciiToString
    rw [harray]

theorem asciiToString_spec_padded :
    asciiToString [0x20, 0x41, 0x20, 0x42, 0x0A, 0x00, 0x43] = [0x41, 0x20, 0x42] ∧
      asciiToString ([0x20, 0x41, 0x20, 0x42, 0x0A] ++ 0x00 :: []) =
        asciiToString [0x20, 0x41, 0x20, 0x42, 0x0A, 0x00, 0x43] := by
  obtain ⟨-, -, -, hrest, -⟩ := asciiToString_spec [0x20, 0x41, 0x20, 0x42, 0x0A, 0x00, 0x43]
  exact ⟨by decide, hrest [0x20, 0x41, 0x20, 0x42, 0x0A] [0x43] [] rfl⟩

end ResponseTranslator

end Spectrum.Utils
