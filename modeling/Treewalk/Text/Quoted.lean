import Treewalk.Text.Printable

/-!
## Quoted text

A quoted text stands between single quotes, or between double quotes if it contains a
single quote and no double quote. Inside, a backslash and the enclosing quote follow a
backslash, and line feed, carriage return and tab are written `\n`, `\r` and `\t`. Every other
character that is not printable is written as its code point: in two lower-case hexadecimal
digits after `\x`, in four after `\u`, or in eight after `\U`, whichever is the shortest that
does. All other characters stand for themselves.

* `isPrintable_of_mem_quoted`: what is quoted can be seen.
-/

namespace Treewalk.Text

/-- The last hexadecimal digits of a number, in lower case. -/
def hexDigits : Nat → Nat → List Char
  | 0, _ => []
  | width + 1, n => hexDigits width (n / 16) ++ [Nat.digitChar (n % 16)]

/-- A character written as its code point. -/
def escape (c : Char) : List Char :=
  if c.toNat < 0x100 then '\\' :: 'x' :: hexDigits 2 c.toNat
  else if c.toNat < 0x10000 then '\\' :: 'u' :: hexDigits 4 c.toNat
  else '\\' :: 'U' :: hexDigits 8 c.toNat

/-- How one character is written between quotes of the kind `quote`. -/
def encodeChar (quote c : Char) : List Char :=
  if c = quote || c = '\\' then ['\\', c]
  else if c = '\n' then ['\\', 'n']
  else if c = '\r' then ['\\', 'r']
  else if c = '\t' then ['\\', 't']
  else if isPrintable c then [c]
  else escape c

/-- How characters are written between quotes of the kind `quote`. -/
def encode (quote : Char) (cs : List Char) : List Char :=
  cs.flatMap (encodeChar quote)

/-- The quote that encloses a text. -/
def quoteFor (s : String) : Char :=
  if s.toList.contains '\'' && !s.toList.contains '"' then '"' else '\''

/-- The **quoted form** of a text. -/
def quoted (s : String) : String :=
  String.ofList (quoteFor s :: encode (quoteFor s) s.toList ++ [quoteFor s])

variable {c quote : Char}

theorem isPrintable_of_mem_hexDigits {width n : Nat} (h : c ∈ hexDigits width n) :
    isPrintable c = true := by
  induction width generalizing n with
  | zero => cases h
  | succ width ih =>
    rcases List.mem_append.mp h with h | h
    · exact ih h
    · rw [List.mem_singleton.mp h]
      exact isPrintable_digitChar (Nat.mod_lt n (by decide))

theorem isPrintable_of_mem_escape {d : Char} (h : d ∈ escape c) : isPrintable d = true := by
  have hdigits : ∀ {mark : Char} {width n : Nat}, isPrintable mark = true →
      d ∈ '\\' :: mark :: hexDigits width n → isPrintable d = true := by
    intro mark width n hmark hd
    rcases List.mem_cons.mp hd with rfl | hd
    · decide
    rcases List.mem_cons.mp hd with rfl | hd
    · exact hmark
    · exact isPrintable_of_mem_hexDigits hd
  unfold escape at h
  split at h
  · exact hdigits (by decide) h
  split at h
  · exact hdigits (by decide) h
  · exact hdigits (by decide) h

theorem isPrintable_of_mem_encodeChar {d : Char} (hquote : isPrintable quote = true)
    (h : d ∈ encodeChar quote c) : isPrintable d = true := by
  have hpair : ∀ {mark : Char}, isPrintable mark = true → d ∈ ['\\', mark] →
      isPrintable d = true := by
    intro mark hmark hd
    rcases List.mem_cons.mp hd with rfl | hd
    · decide
    · rwa [List.mem_singleton.mp hd]
  unfold encodeChar at h
  split at h
  case isTrue hc =>
    refine hpair ?_ h
    rcases Bool.or_eq_true _ _ ▸ hc with hc | hc
    · rwa [of_decide_eq_true hc]
    · rw [of_decide_eq_true hc]
      decide
  split at h
  · exact hpair (by decide) h
  split at h
  · exact hpair (by decide) h
  split at h
  · exact hpair (by decide) h
  split at h
  case isTrue hc => rwa [List.mem_singleton.mp h]
  case isFalse => exact isPrintable_of_mem_escape h

theorem isPrintable_quoteFor (s : String) : isPrintable (quoteFor s) = true := by
  unfold quoteFor
  split <;> decide

/-- **What is quoted can be seen.** -/
theorem isPrintable_of_mem_quoted {s : String} (h : c ∈ (quoted s).toList) :
    isPrintable c = true := by
  rw [quoted, String.toList_ofList] at h
  rcases List.mem_append.mp h with h | h
  · rcases List.mem_cons.mp h with rfl | h
    · exact isPrintable_quoteFor s
    · obtain ⟨d, -, hd⟩ := List.mem_flatMap.mp h
      exact isPrintable_of_mem_encodeChar (isPrintable_quoteFor s) hd
  · rw [List.mem_singleton.mp h]
    exact isPrintable_quoteFor s

end Treewalk.Text
