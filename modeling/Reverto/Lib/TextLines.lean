import Mathlib.Tactic

/-!
# Text read from a file of bytes

UTF-8 with replacement of what does not decode, universal newlines and `str.splitlines`. What a
reader shows of a text is the text with white space left out.
-/

namespace TextLines

/-! ### Decoding -/

/-- The bytes of a text. -/
def encode (s : List Char) : List UInt8 := s.flatMap String.utf8EncodeChar

/-- The second byte of a sequence that starts with `b` may be `c`. -/
def secondByte (b c : UInt8) : Bool :=
  if b = 0xE0 then decide (0xA0 ≤ c ∧ c ≤ 0xBF)
  else if b = 0xED then decide (0x80 ≤ c ∧ c ≤ 0x9F)
  else if b = 0xF0 then decide (0x90 ≤ c ∧ c ≤ 0xBF)
  else if b = 0xF4 then decide (0x80 ≤ c ∧ c ≤ 0x8F)
  else decide (0xC2 ≤ b ∧ b ≤ 0xF3 ∧ 0x80 ≤ c ∧ c ≤ 0xBF)

/-- The bytes that one replacement character stands for: the longest beginning of a sequence. -/
def invalidLength : List UInt8 → ℕ
  | b :: c :: d :: _ =>
    if secondByte b c = true then (if 0x80 ≤ d ∧ d ≤ 0xBF then 3 else 2) else 1
  | [b, c] => if secondByte b c = true then 2 else 1
  | _ => 1

/-- At most `n` characters of the bytes. -/
def decodeUpTo : ℕ → List UInt8 → List Char
  | 0, _ => []
  | _ + 1, [] => []
  | n + 1, b :: bytes =>
    match (b :: bytes).toByteArray.utf8DecodeChar? 0 with
    | some c => c :: decodeUpTo n ((b :: bytes).drop c.utf8Size)
    | none => '\uFFFD' :: decodeUpTo n ((b :: bytes).drop (invalidLength (b :: bytes)))

/-- `decode("utf-8", errors="replace")` -/
def decode (bytes : List UInt8) : List Char := decodeUpTo bytes.length bytes

theorem invalidLength_pos (bytes : List UInt8) : 0 < invalidLength bytes := by
  unfold invalidLength
  split
  · split
    · split <;> omega
    · omega
  · split <;> omega
  · omega

/-- More steps than bytes change nothing. -/
theorem decodeUpTo_fuel (n m : ℕ) (bytes : List UInt8) (hn : bytes.length ≤ n)
    (hm : bytes.length ≤ m) : decodeUpTo n bytes = decodeUpTo m bytes := by
  induction n generalizing m bytes with
  | zero =>
    obtain rfl := List.length_eq_zero_iff.mp (Nat.le_zero.mp hn)
    cases m <;> rfl
  | succ n ih =>
    cases bytes with
    | nil => cases m <;> rfl
    | cons b bytes =>
      cases m with
      | zero => simp at hm
      | succ m =>
        have hdrop : ∀ k, 0 < k → decodeUpTo n ((b :: bytes).drop k) =
            decodeUpTo m ((b :: bytes).drop k) := by
          intro k hk
          rw [List.length_cons] at hn hm
          refine ih m _ ?_ ?_
          · rw [List.length_drop, List.length_cons]
            omega
          · rw [List.length_drop, List.length_cons]
            omega
        simp only [decodeUpTo]
        cases (b :: bytes).toByteArray.utf8DecodeChar? 0 with
        | none => exact congrArg _ (hdrop _ (invalidLength_pos _))
        | some c => exact congrArg _ (hdrop _ c.utf8Size_pos)

/-- Whole characters decode to themselves, whatever comes behind them. -/
theorem decode_encode_append (s : List Char) (bytes : List UInt8) :
    decode (encode s ++ bytes) = s ++ decode bytes := by
  induction s with
  | nil => rfl
  | cons c s ih =>
    have hbytes : encode (c :: s) ++ bytes = String.utf8EncodeChar c ++ (encode s ++ bytes) := by
      rw [encode, List.flatMap_cons, List.append_assoc]
      rfl
    have hlength : (String.utf8EncodeChar c).length = c.utf8Size := String.length_utf8EncodeChar c
    have hpos := c.utf8Size_pos
    obtain ⟨b, tail, hcons⟩ : ∃ b tail, encode (c :: s) ++ bytes = b :: tail := by
      refine List.exists_cons_of_ne_nil ?_
      rw [hbytes]
      intro hnil
      rw [(List.append_eq_nil_iff.mp hnil).1, List.length_nil] at hlength
      omega
    have hchar : (b :: tail).toByteArray.utf8DecodeChar? 0 = some c := by
      rw [← hcons, hbytes, List.toByteArray_append]
      exact ByteArray.utf8DecodeChar?_utf8EncodeChar_append
    have hrest : (b :: tail).drop c.utf8Size = encode s ++ bytes := by
      rw [← hcons, hbytes, ← hlength, List.drop_left]
    have hlong : (encode s ++ bytes).length ≤ tail.length := by
      have hcount := congrArg List.length hrest
      rw [List.length_drop, List.length_cons] at hcount
      omega
    rw [hcons, decode, List.length_cons]
    simp only [decodeUpTo, hchar, hrest]
    rw [decodeUpTo_fuel tail.length _ _ hlong le_rfl]
    exact congrArg (c :: ·) ih

theorem encode_append (s t : List Char) : encode (s ++ t) = encode s ++ encode t :=
  List.flatMap_append

theorem decode_encode (s : List Char) : decode (encode s) = s := by
  have h := decode_encode_append s []
  rw [List.append_nil] at h
  rw [h]
  exact List.append_nil s

/-! ### Lines -/

/-- `newline=None` of `open` -/
def universalNewlines : List Char → List Char
  | '\r' :: '\n' :: cs => '\n' :: universalNewlines cs
  | '\r' :: cs => '\n' :: universalNewlines cs
  | c :: cs => c :: universalNewlines cs
  | [] => []

/-- The line boundaries of `str.splitlines`. -/
def isLineBreak (c : Char) : Bool :=
  decide (c.toNat ∈ [0x0a, 0x0b, 0x0c, 0x0d, 0x1c, 0x1d, 0x1e, 0x85, 0x2028, 0x2029])

/-- `str.splitlines` -/
def splitLines : List Char → List (List Char)
  | [] => []
  | '\r' :: '\n' :: cs => [] :: splitLines cs
  | c :: cs =>
    if isLineBreak c = true then [] :: splitLines cs
    else
      match splitLines cs with
      | [] => [[c]]
      | line :: lines => (c :: line) :: lines

theorem filter_universalNewlines (cs : List Char) :
    (universalNewlines cs).filter (fun c => !isLineBreak c) = cs.filter fun c => !isLineBreak c := by
  have hr : isLineBreak '\r' = true := by decide
  have hn : isLineBreak '\n' = true := by decide
  induction cs using universalNewlines.induct with
  | case1 cs ih => simp [universalNewlines, hr, hn, ih]
  | case2 cs hne ih =>
    rw [universalNewlines]
    · simp [hr, hn, ih]
    · exact hne
  | case3 c cs hcrlf hcr ih =>
    rw [universalNewlines]
    · rw [List.filter_cons, List.filter_cons, ih]
    · exact hcrlf
    · exact hcr
  | case4 => rfl

/-- The lines have every character but the line boundaries. -/
theorem flatten_splitLines (cs : List Char) :
    (splitLines cs).flatten = cs.filter fun c => !isLineBreak c := by
  have hr : isLineBreak '\r' = true := by decide
  have hn : isLineBreak '\n' = true := by decide
  induction cs using splitLines.induct with
  | case1 => rfl
  | case2 cs ih => simp [splitLines, hr, hn, ih]
  | case3 c cs hne hbreak ih =>
    rw [splitLines, if_pos hbreak]
    · simp [hbreak, ih]
    · exact hne
  | case4 c cs hne hbreak hlines ih =>
    rw [splitLines, if_neg hbreak, hlines]
    · rw [hlines] at ih
      simp [hbreak, ← ih]
    · exact hne
  | case5 c cs hne hbreak line lines hlines ih =>
    rw [splitLines, if_neg hbreak, hlines]
    · rw [hlines] at ih
      simp [hbreak, ← ih]
    · exact hne

/-! ### What is shown of a text -/

/-- The text, with nothing but white space left out. -/
structure Shows (space : Char → Bool) (shown text : List Char) : Prop where
  sublist : shown.Sublist text
  visible : shown.filter (fun c => !space c) = text.filter fun c => !space c

variable (space : Char → Bool)

theorem shows_nil : Shows space [] [] := ⟨List.Sublist.refl _, rfl⟩

theorem Shows.append (a b s t : List Char) (h : Shows space a s) (h' : Shows space b t) :
    Shows space (a ++ b) (s ++ t) := by
  refine ⟨h.sublist.append h'.sublist, ?_⟩
  rw [List.filter_append, List.filter_append, h.visible, h'.visible]

/-- Lines that are not blank, out of a text. -/
theorem shows_lines (hbreak : ∀ c, isLineBreak c = true → space c = true)
    (keep : List Char → Bool) (hkeep : ∀ line, keep line = false → ∀ c ∈ line, space c = true)
    (text : List Char) :
    Shows space ((splitLines (universalNewlines text)).filter keep).flatten text := by
  have hlines : (splitLines (universalNewlines text)).flatten =
      text.filter fun c => !isLineBreak c := by
    rw [flatten_splitLines, filter_universalNewlines]
  have hkept : ∀ lines : List (List Char),
      (lines.filter keep).flatten.Sublist lines.flatten ∧
        (lines.filter keep).flatten.filter (fun c => !space c) =
          lines.flatten.filter fun c => !space c := by
    intro lines
    induction lines with
    | nil => exact ⟨List.Sublist.refl _, rfl⟩
    | cons line lines ih =>
      obtain ⟨hsub, hvisible⟩ := ih
      cases hline : keep line with
      | true =>
        rw [List.filter_cons_of_pos hline, List.flatten_cons, List.flatten_cons]
        refine ⟨(List.Sublist.refl line).append hsub, ?_⟩
        rw [List.filter_append, List.filter_append, hvisible]
      | false =>
        have hblank : line.filter (fun c => !space c) = [] := by
          refine List.filter_eq_nil_iff.mpr fun c hc => ?_
          rw [hkeep line hline c hc]
          decide
        rw [List.filter_cons_of_neg (by rw [hline]; decide), List.flatten_cons]
        refine ⟨hsub.trans (List.sublist_append_right _ _), ?_⟩
        rw [List.filter_append, hblank, List.nil_append, hvisible]
  obtain ⟨hsub, hvisible⟩ := hkept (splitLines (universalNewlines text))
  rw [hlines] at hsub hvisible
  refine ⟨hsub.trans List.filter_sublist, ?_⟩
  rw [hvisible, List.filter_filter]
  refine List.filter_congr fun c _ => ?_
  cases hb : isLineBreak c with
  | true => simp [hbreak c hb]
  | false => simp

end TextLines
