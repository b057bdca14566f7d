import Mathlib.Tactic
import RoverPilot.Proofs.Text.Utf8

/-!
What is kept of a text that arrives in pieces.

* `encode`, `trail`, `IsLong`: the bytes of a text; those that end a character, and the numbers
  whose characters have more than one byte;
* `Unfinished.Admits`: the numbers that the first bytes of a character may still become.
  `lead_admits` and `Unfinished.next_admits` say how one byte narrows them;
* `Spells`: bytes that complete one character.  `spells_iff` finds exactly its encoding;
* `mem_encode_iff`: a byte below `0x80` is part of no other character;
* `Begins`: bytes with which a character begins, empty or `Cut` from the rest of it;
* `exists_encode_append`: bytes without a fault are the encoding of a text and a cut character;
* `take_exact`: only a cut character is kept, and the pieces of an encoded text are taken as they
  stand, up to its end.
-/

namespace RoverPilot.Text.Utf8

/-! ### The bytes of a text -/

/-- The bytes of a text. -/
def encode (text : List Char) : List UInt8 := text.flatMap String.utf8EncodeChar

@[simp] lemma encode_nil : encode [] = [] := rfl

@[simp] lemma encode_cons (c : Char) (text : List Char) :
    encode (c :: text) = String.utf8EncodeChar c ++ encode text := rfl

@[simp] lemma encode_append (text more : List Char) :
    encode (text ++ more) = encode text ++ encode more :=
  List.flatMap_append

/-- The byte of a number that `k` bytes follow. -/
def tailByte (v k : Nat) : UInt8 := UInt8.ofNat (0x80 + v / 64 ^ k % 64)

/-- The last bytes of a number. -/
def trail (v : Nat) : Nat → List UInt8
  | 0 => []
  | k + 1 => tailByte v k :: trail v k

/-- What the first byte of a character is above the bits of its number, some bytes following it. -/
def mark : Nat → Nat
  | 1 => 0xC0
  | 2 => 0xE0
  | _ => 0xF0

/-- The number of a character that takes so many bytes after the first one. -/
@[mk_iff]
inductive IsLong (v : Nat) : Nat → Prop where
  | two (hlow : 0x80 ≤ v) (hhigh : v < 0x800) : IsLong v 1
  | three (hlow : 0x800 ≤ v) (hhigh : v < 0x10000) (hgap : v < 0xD800 ∨ 0xE000 ≤ v) : IsLong v 2
  | four (hlow : 0x10000 ≤ v) (hhigh : v < 0x110000) : IsLong v 3

variable {v n : Nat} {b : UInt8} {c : Char} {u : Unfinished}

lemma toNat_tailByte (v k : Nat) : (tailByte v k).toNat = 0x80 + v / 64 ^ k % 64 := by
  rw [tailByte, UInt8.toNat_ofNat']
  omega

lemma IsLong.isValidChar (h : IsLong v n) : v.isValidChar := by
  unfold Nat.isValidChar
  cases h <;> omega

lemma toNat_ofNat (h : v.isValidChar) : (Char.ofNat v).toNat = v := by
  rw [Char.ofNat, dif_pos h]
  rfl

/-- A character has one byte, or its number is a long one. -/
lemma isLong_or (c : Char) : c.toNat < 0x80 ∨ ∃ n, IsLong c.toNat n := by
  have hvalid : c.toNat < 0xD800 ∨ 0xDFFF < c.toNat ∧ c.toNat < 0x110000 := c.valid
  by_cases hone : c.toNat < 0x80
  · exact .inl hone
  refine .inr ?_
  by_cases htwo : c.toNat < 0x800
  · exact ⟨1, .two (by omega) htwo⟩
  by_cases hthree : c.toNat < 0x10000
  · exact ⟨2, .three (by omega) hthree (by omega)⟩
  · exact ⟨3, .four (by omega) (by omega)⟩

lemma utf8EncodeChar_of_lt (h : c.toNat < 0x80) :
    String.utf8EncodeChar c = [UInt8.ofNat c.toNat] := by
  have hle : c.val.toNat ≤ 0x7f := Nat.le_of_lt_succ h
  simp only [String.utf8EncodeChar, hle, if_true]
  rfl

/-- A longer one begins with the first bits of its number, and six bits follow in each byte. -/
lemma utf8EncodeChar_of_isLong (h : IsLong c.toNat n) :
    String.utf8EncodeChar c = UInt8.ofNat (mark n + c.toNat / 64 ^ n) :: trail c.toNat n := by
  have hval : c.val.toNat = c.toNat := rfl
  simp only [String.utf8EncodeChar, hval]
  generalize c.toNat = v at h
  cases h with
  | two hlow hhigh =>
      rw [if_neg (by omega), if_pos (by omega)]
      have hhead : v / 64 % 0x20 + 0xc0 = 0xC0 + v / 64 := by omega
      simp [trail, tailByte, mark, hhead, Nat.add_comm]
  | three hlow hhigh hgap =>
      rw [if_neg (by omega), if_neg (by omega), if_pos (by omega)]
      have hhead : v / 4096 % 0x10 + 0xe0 = 0xE0 + v / 4096 := by omega
      simp [trail, tailByte, mark, hhead, Nat.add_comm]
  | four hlow hhigh =>
      rw [if_neg (by omega), if_neg (by omega), if_neg (by omega)]
      have hhead : v / 262144 % 0x08 + 0xf0 = 0xF0 + v / 262144 := by omega
      simp [trail, tailByte, mark, hhead, Nat.add_comm]

/-! ### The numbers that are still open -/

/-- The first bytes of a character may become that of a number. -/
@[mk_iff]
structure Unfinished.Admits (u : Unfinished) (v : Nat) : Prop where
  /-- They spell its first bits, -/
  value : v / 64 ^ u.missing = u.value
  /-- and its next byte is in the range of the next one. -/
  low : u.low.toNat ≤ 0x80 + v / 64 ^ (u.missing - 1) % 64
  high : 0x80 + v / 64 ^ (u.missing - 1) % 64 ≤ u.high.toNat

/-- Bytes are missing, and some byte may be the next one. -/
structure Unfinished.Lasts (u : Unfinished) : Prop where
  missing : 0 < u.missing
  low : 0x80 ≤ u.low.toNat
  range : u.low.toNat ≤ u.high.toNat
  high : u.high.toNat ≤ 0xBF

lemma Unfinished.Lasts.exists_missing (hu : u.Lasts) : ∃ m, u.missing = m + 1 :=
  Nat.exists_eq_succ_of_ne_zero hu.missing.ne'

/-- A first byte with others behind it admits the long numbers that it begins. -/
lemma lead_admits (h : lead b = .more u) :
    u.Admits v ↔ IsLong v u.missing ∧ b.toNat = mark u.missing + v / 64 ^ u.missing := by
  rw [lead] at h
  simp only [UInt8.lt_iff_toNat_lt, ← UInt8.toNat_inj, UInt8.reduceToNat] at h
  split_ifs at h <;> obtain rfl := Step.more.inj h
  all_goals
    rw [Unfinished.admits_iff, isLong_iff]
    simp only [mark, Nat.reduceSub, Nat.reducePow, Nat.div_one, UInt8.reduceToNat, and_true]
    omega

lemma lead_lasts (h : lead b = .more u) : u.Lasts := by
  rw [lead] at h
  simp only [UInt8.lt_iff_toNat_lt, ← UInt8.toNat_inj, UInt8.reduceToNat] at h
  split_ifs at h <;> obtain rfl := Step.more.inj h
  all_goals first | omega | constructor <;> simp

/-- A byte that is a character alone is its number. -/
lemma lead_eq_char_iff : lead b = .char c ↔ b.toNat < 0x80 ∧ Char.ofNat b.toNat = c := by
  simp only [lead, UInt8.lt_iff_toNat_lt, UInt8.reduceToNat]
  split_ifs <;> simp [*]

lemma IsLong.mark_add_lt (h : IsLong v n) : mark n + v / 64 ^ n < 0x100 := by
  cases h <;> simp only [mark, Nat.reducePow] <;> omega

/-- The first byte of a long number is right. -/
lemma exists_lead (hlong : IsLong v n) (hb : b.toNat = mark n + v / 64 ^ n) :
    ∃ u, lead b = .more u ∧ u.missing = n := by
  simp only [lead, UInt8.lt_iff_toNat_lt, UInt8.reduceToNat]
  cases hlong with
  | two hlow hhigh =>
      simp only [mark, Nat.reducePow] at hb
      rw [if_neg (by omega), if_neg (by omega), if_pos (by omega)]
      exact ⟨_, rfl, rfl⟩
  | three hlow hhigh hgap =>
      simp only [mark, Nat.reducePow] at hb
      rw [if_neg (by omega), if_neg (by omega), if_neg (by omega), if_pos (by omega)]
      exact ⟨_, rfl, rfl⟩
  | four hlow hhigh =>
      simp only [mark, Nat.reducePow] at hb
      rw [if_neg (by omega), if_neg (by omega), if_neg (by omega), if_neg (by omega),
        if_pos (by omega)]
      exact ⟨_, rfl, rfl⟩

variable {m : Nat} {w : Unfinished}

/-- An admitted number goes on with a byte exactly if this is in the range of the next one and its
bits are those that come next. -/
lemma Unfinished.Lasts.admits_and_iff (hu : u.Lasts) (hm : u.missing = m + 1) :
    u.Admits v ∧ b = tailByte v m ↔
      (u.low ≤ b ∧ b ≤ u.high) ∧ v / 64 ^ m = 64 * u.value + (b.toNat - 0x80) := by
  obtain ⟨-, hlow, -, hhigh⟩ := hu
  have hdiv : v / 64 ^ (m + 1) = v / 64 ^ m / 64 := by rw [Nat.div_div_eq_div_mul, pow_succ]
  rw [Unfinished.admits_iff, hm, Nat.add_sub_cancel, hdiv, ← UInt8.toNat_inj, toNat_tailByte,
    UInt8.le_iff_toNat_le, UInt8.le_iff_toNat_le]
  omega

/-- The last byte completes the admitted number that it belongs to. -/
lemma Unfinished.Lasts.next_eq_char_iff (hu : u.Lasts) :
    u.next b = .char c ↔
      u.missing = 1 ∧ ∃ v, (u.Admits v ∧ b = tailByte v 0) ∧ c = Char.ofNat v := by
  have hpos := hu.missing
  rw [Unfinished.next]
  constructor
  · intro h
    split_ifs at h with hrange hlast
    have hm : u.missing = 1 := by omega
    refine ⟨hm, _, (hu.admits_and_iff hm).mpr ⟨hrange, Nat.div_one _⟩, (Step.char.inj h).symm⟩
  · rintro ⟨hm, v, hv, rfl⟩
    obtain ⟨hrange, hvalue⟩ := (hu.admits_and_iff hm).mp hv
    rw [pow_zero, Nat.div_one] at hvalue
    rw [if_pos hrange, if_pos hm.le, hvalue]

/-- A byte before it leaves the admitted numbers that it belongs to. -/
lemma Unfinished.Lasts.next_admits (hu : u.Lasts) (h : u.next b = .more w) :
    w.Lasts ∧ u.missing = w.missing + 1 ∧ (w.Admits v ↔ u.Admits v ∧ b = tailByte v w.missing) := by
  rw [Unfinished.next] at h
  split_ifs at h with hrange hlast
  obtain rfl := Step.more.inj h
  have hm : u.missing = u.missing - 1 + 1 := by omega
  refine ⟨⟨Nat.sub_pos_of_lt (Nat.lt_of_not_le hlast), by simp, by simp, by simp⟩, hm, ?_⟩
  rw [hu.admits_and_iff hm, and_iff_right hrange, Unfinished.admits_iff]
  simp only [UInt8.reduceToNat]
  omega

/-- The next byte of an admitted number is right. -/
lemma Unfinished.Lasts.exists_next (hu : u.Lasts) (hm : u.missing = m + 2) (hv : u.Admits v) :
    ∃ w, u.next (tailByte v (m + 1)) = .more w := by
  obtain ⟨hrange, -⟩ := (hu.admits_and_iff hm).mp ⟨hv, rfl⟩
  rw [Unfinished.next, if_pos hrange, if_neg (by omega)]
  exact ⟨_, rfl⟩

/-- Some number is admitted. -/
lemma Unfinished.Lasts.exists_admits (hu : u.Lasts) : ∃ v, u.Admits v := by
  obtain ⟨m, hm⟩ := hu.exists_missing
  have hrange : u.low ≤ u.low ∧ u.low ≤ u.high :=
    ⟨UInt8.le_refl _, UInt8.le_iff_toNat_le.mpr hu.range⟩
  have hpos : 0 < 64 ^ m := Nat.pow_pos (by decide)
  have hvalue := Nat.mul_div_cancel (64 * u.value + (u.low.toNat - 0x80)) hpos
  exact ⟨_, ((hu.admits_and_iff hm).mpr ⟨hrange, hvalue⟩).1⟩

/-! ### The bytes of one character -/

/-- Bytes that complete a character behind its first ones, if there are any. -/
inductive Spells : Option Unfinished → List UInt8 → Char → Prop where
  | last {before : Option Unfinished} {b : UInt8} {c : Char} :
      next before b = .char c → Spells before [b] c
  | cons {before : Option Unfinished} {b : UInt8} {u : Unfinished} {s : List UInt8} {c : Char} :
      next before b = .more u → Spells (some u) s c → Spells before (b :: s) c

variable {before : Option Unfinished} {s held tail : List UInt8}

lemma Spells.ne_nil (h : Spells before s c) : s ≠ [] := by
  cases h <;> simp

lemma Spells.run (h : Spells before s c) : run before s = ([c], none) := by
  induction h with
  | last hb => simp [Utf8.run, feed_of_char hb]
  | cons hb _ ih => simp [Utf8.run, feed_of_more hb, ih]

lemma Spells.tailFrom? (h : Spells before s c) (held t : List UInt8) :
    tailFrom? before held (s ++ t) = tailFrom? none [] t := by
  induction h generalizing held with
  | last hb => rw [List.singleton_append, tailFrom?_cons, hb]
  | cons hb _ ih => rw [List.cons_append, tailFrom?_cons, hb]; exact ih _

/-- Behind the first bytes of a character the last bytes of any admitted number complete it. -/
lemma Unfinished.Lasts.spells (hu : u.Lasts) (hm : u.missing = m + 1) (hv : u.Admits v) :
    Spells (some u) (trail v (m + 1)) (Char.ofNat v) := by
  induction m generalizing u with
  | zero => exact .last (hu.next_eq_char_iff.mpr ⟨hm, v, ⟨hv, rfl⟩, rfl⟩)
  | succ m ih =>
      obtain ⟨w, hw⟩ := hu.exists_next hm hv
      obtain ⟨hlasts, hmissing, hadmits⟩ := hu.next_admits (v := v) hw
      have hm' : w.missing = m + 1 := by omega
      exact .cons hw (ih hlasts hm' (hadmits.mpr ⟨hv, by rw [hm']⟩))

/-- Nothing else does. -/
lemma Spells.exists_admits (h : Spells (some u) s c) (hu : u.Lasts) :
    ∃ v, u.Admits v ∧ s = trail v u.missing ∧ c = Char.ofNat v := by
  generalize hbefore : some u = before at h
  induction h generalizing u with
  | last hb =>
      subst hbefore
      obtain ⟨hm, v, ⟨hv, rfl⟩, hc⟩ := hu.next_eq_char_iff.mp hb
      exact ⟨v, hv, by rw [hm]; rfl, hc⟩
  | cons hb _ ih =>
      subst hbefore
      obtain ⟨hlasts, hmissing, -⟩ := hu.next_admits (v := 0) hb
      obtain ⟨v, hv, rfl, hc⟩ := ih hlasts rfl
      obtain ⟨hv, rfl⟩ := (hu.next_admits hb).2.2.mp hv
      exact ⟨v, hv, by rw [hmissing]; rfl, hc⟩

lemma spells_utf8EncodeChar (c : Char) : Spells none (String.utf8EncodeChar c) c := by
  obtain hone | ⟨n, hlong⟩ := isLong_or c
  · have hword : c.toNat < 0x100 := hone.trans (by decide)
    have hb : (UInt8.ofNat c.toNat).toNat = c.toNat := UInt8.toNat_ofNat_of_lt' hword
    rw [utf8EncodeChar_of_lt hone]
    exact .last (lead_eq_char_iff.mpr ⟨by rwa [hb], by rw [hb, Char.ofNat_toNat]⟩)
  · have hb := UInt8.toNat_ofNat_of_lt' hlong.mark_add_lt
    obtain ⟨u, hlead, rfl⟩ := exists_lead hlong hb
    have hlasts := lead_lasts hlead
    obtain ⟨m, hm⟩ := hlasts.exists_missing
    have hrest := hlasts.spells hm ((lead_admits hlead).mpr ⟨hlong, hb⟩)
    rw [utf8EncodeChar_of_isLong hlong]
    rw [← hm, Char.ofNat_toNat] at hrest
    exact .cons hlead hrest

/-- A character is spelled by its encoding only. -/
theorem spells_iff : Spells none s c ↔ s = String.utf8EncodeChar c := by
  refine ⟨fun h => ?_, fun h => h ▸ spells_utf8EncodeChar c⟩
  cases h with
  | @last _ b _ hb =>
      obtain ⟨hone, rfl⟩ := lead_eq_char_iff.mp hb
      have hvalid : b.toNat.isValidChar := .inl (by omega)
      have htoNat : (Char.ofNat b.toNat).toNat = b.toNat := toNat_ofNat hvalid
      rw [utf8EncodeChar_of_lt (by rwa [htoNat]), htoNat, UInt8.ofNat_toNat]
  | @cons _ b u s _ hb hs =>
      obtain ⟨v, hv, rfl, rfl⟩ := hs.exists_admits (lead_lasts hb)
      obtain ⟨hlong, hvalue⟩ := (lead_admits hb).mp hv
      have htoNat := toNat_ofNat hlong.isValidChar
      rw [utf8EncodeChar_of_isLong (htoNat.symm ▸ hlong), htoNat, ← hvalue, UInt8.ofNat_toNat]

/-! ### Texts and what follows them -/

lemma decode_encode_append (text : List Char) (s : List UInt8) :
    decode (encode text ++ s) = text ++ decode s := by
  induction text with
  | nil => rfl
  | cons c text ih =>
      have hrun := (spells_utf8EncodeChar c).run
      rw [encode_cons, List.append_assoc, decode, decodeFrom_append, hrun]
      exact congrArg (c :: ·) ih

lemma tail?_encode_append (text : List Char) (s : List UInt8) :
    tail? (encode text ++ s) = tail? s := by
  induction text with
  | nil => rfl
  | cons c text ih =>
      rw [encode_cons, List.append_assoc, tail?, (spells_utf8EncodeChar c).tailFrom?]
      exact ih

lemma decode_encode (text : List Char) : decode (encode text) = text := by
  simpa [decode, decodeFrom] using decode_encode_append text []

lemma tail?_encode (text : List Char) : tail? (encode text) = some [] := by
  simpa [tail?, tailFrom?] using tail?_encode_append text []

/-! ### Characters of one byte -/

lemma le_toNat_of_mem_trail (hb : b ∈ trail v n) : 0x80 ≤ b.toNat := by
  induction n with
  | zero => cases hb
  | succ n ih =>
      rcases List.mem_cons.mp hb with rfl | hb
      · rw [toNat_tailByte]
        exact Nat.le_add_right _ _
      · exact ih hb

/-- A byte below `0x80` is in no character but the one that it is alone. -/
lemma mem_utf8EncodeChar_iff (hb : b.toNat < 0x80) :
    b ∈ String.utf8EncodeChar c ↔ c.toNat = b.toNat := by
  obtain hone | ⟨n, hlong⟩ := isLong_or c
  · have hword : c.toNat < 0x100 := hone.trans (by decide)
    rw [utf8EncodeChar_of_lt hone, List.mem_singleton, ← UInt8.toNat_inj,
      UInt8.toNat_ofNat_of_lt' hword, eq_comm]
  · have hfirst := UInt8.toNat_ofNat_of_lt' hlong.mark_add_lt
    have hmark : 0x80 ≤ mark n := by cases hlong <;> decide
    have hlow : 0x80 ≤ c.toNat := by cases hlong <;> omega
    rw [utf8EncodeChar_of_isLong hlong, List.mem_cons]
    refine iff_of_false (not_or_intro ?_ fun htrail => ?_) (by omega)
    · rintro rfl
      rw [hfirst] at hb
      exact absurd hb (hmark.trans (Nat.le_add_right _ _)).not_gt
    · exact absurd hb (le_toNat_of_mem_trail htrail).not_gt

/-- So it is in the bytes of a text exactly if that character is in the text. -/
lemma mem_encode_iff {text : List Char} (hb : b.toNat < 0x80) :
    b ∈ encode text ↔ ∃ c ∈ text, c.toNat = b.toNat := by
  simp only [encode, List.mem_flatMap, mem_utf8EncodeChar_iff hb]

/-! ### Cut characters -/

/-- Bytes are cut from a character: some of its first ones, but not all. -/
def Cut (kept : List UInt8) : Prop :=
  kept ≠ [] ∧ ∃ c rest, rest ≠ [] ∧ String.utf8EncodeChar c = kept ++ rest

/-- A cut character has one to three bytes. -/
lemma Cut.length_le {kept : List UInt8} (h : Cut kept) : 1 ≤ kept.length ∧ kept.length ≤ 3 := by
  obtain ⟨hkept, c, rest, hrest, heq⟩ := h
  have hlength := congrArg List.length heq
  have hsize := c.utf8Size_le_four
  rw [String.length_utf8EncodeChar, List.length_append] at hlength
  have := List.length_pos_iff.mpr hkept
  have := List.length_pos_iff.mpr hrest
  omega

/-- Bytes are the first ones of a character, as far as `before` tells. -/
structure Begins (held : List UInt8) (before : Option Unfinished) : Prop where
  lasts : ∀ u, before = some u → u.Lasts
  eq_nil : before = none → held = []
  spells : ∀ s c, Spells before s c → Spells none (held ++ s) c

lemma begins_nil : Begins [] none := ⟨by simp, by simp, by simp⟩

lemma Begins.concat (h : Begins held before) (hb : next before b = .more u) :
    Begins (held ++ [b]) (some u) := by
  refine ⟨fun w hw => ?_, by simp, fun s c hs => ?_⟩
  · obtain rfl := Option.some.inj hw
    cases before with
    | none => exact lead_lasts hb
    | some w => exact ((h.lasts w rfl).next_admits (v := 0) hb).1
  · rw [List.append_assoc]
    exact h.spells _ c (.cons hb hs)

/-- A character that begins has no bytes, or it can still be completed. -/
lemma Begins.eq_nil_or_cut (h : Begins held before) : held = [] ∨ Cut held := by
  cases before with
  | none => exact .inl (h.eq_nil rfl)
  | some u =>
      refine or_iff_not_imp_left.mpr fun hheld => ⟨hheld, ?_⟩
      have hlasts := h.lasts u rfl
      obtain ⟨v, hv⟩ := hlasts.exists_admits
      obtain ⟨m, hm⟩ := hlasts.exists_missing
      have hrest := hlasts.spells hm hv
      exact ⟨_, _, hrest.ne_nil, (spells_iff.mp (h.spells _ _ hrest)).symm⟩

/-- Bytes without a fault are the encoding of a text, and a character that begins behind it. -/
lemma exists_encode_append (hheld : Begins held before) (h : tailFrom? before held s = some tail) :
    ∃ text, held ++ s = encode text ++ tail ∧ (tail = [] ∨ Cut tail) := by
  induction s generalizing before held with
  | nil =>
      obtain rfl := Option.some.inj h
      exact ⟨[], by simp, hheld.eq_nil_or_cut⟩
  | cons b s ih =>
      rw [tailFrom?_cons] at h
      cases hnext : next before b with
      | char c =>
          rw [hnext] at h
          obtain ⟨text, heq, htail⟩ := ih begins_nil h
          have hc := spells_iff.mp (hheld.spells _ c (.last hnext))
          rw [List.nil_append] at heq
          refine ⟨c :: text, ?_, htail⟩
          rw [List.append_cons, hc, heq, encode_cons, List.append_assoc]
      | more u =>
          rw [hnext] at h
          obtain ⟨text, heq, htail⟩ := ih (hheld.concat hnext) h
          exact ⟨text, by rw [List.append_cons, heq], htail⟩
      | wrong =>
          rw [hnext] at h
          cases h

/-! ### What is taken -/

/-- Without a fault the text is taken whose encoding stands before what is kept. -/
lemma take_of_tail?_eq (h : tail? s = some tail) :
    s = encode (take s).1 ++ tail ∧ (take s).2 = tail ∧ (tail = [] ∨ Cut tail) := by
  obtain ⟨text, heq, htail⟩ := exists_encode_append begins_nil h
  rw [List.nil_append] at heq
  have htake : take s = (text, tail) := by
    rw [take, h]
    simp [heq, decode_encode]
  rw [htake]
  exact ⟨heq, rfl, htail⟩

/-- What is taken is the text of the bytes that are removed; what is kept is cut. -/
lemma take_spec (s : List UInt8) :
    ∃ removed, s = removed ++ (take s).2 ∧ (take s).1 = decode removed ∧
      ((take s).2 = [] ∨ Cut (take s).2) := by
  cases h : tail? s with
  | none => exact ⟨s, by simp [take, h], by simp [take, h], by simp [take, h]⟩
  | some tail =>
      obtain ⟨heq, hkept, htail⟩ := take_of_tail?_eq h
      rw [hkept]
      exact ⟨_, heq, (decode_encode _).symm, htail⟩

/-- Bytes without a fault have none at their beginning. -/
lemma exists_tail?_of_append {t : List UInt8} (h : tail? (s ++ t) = some tail) :
    ∃ kept, tail? s = some kept := by
  refine Option.ne_none_iff_exists'.mp fun hnone => ?_
  rw [tail?, tailFrom?_append_eq_none _ _ _ hnone] at h
  cases h

/-- Pieces of bytes without a fault are taken as they stand. -/
lemma takes_of_tail? {rs : List (List UInt8)} (hheld : tail? held = some held)
    (h : tail? (held ++ rs.flatten) = some tail) :
    held ++ rs.flatten = encode (takes held rs).1 ++ tail ∧ (takes held rs).2 = tail := by
  induction rs generalizing held with
  | nil =>
      rw [List.flatten_nil, List.append_nil] at h ⊢
      obtain rfl := Option.some.inj (hheld.symm.trans h)
      exact ⟨rfl, rfl⟩
  | cons r rs ih =>
      rw [List.flatten_cons, ← List.append_assoc] at h ⊢
      obtain ⟨kept, hr⟩ := exists_tail?_of_append h
      obtain ⟨heq, hkept, -⟩ := take_of_tail?_eq hr
      have hself := (tail?_append _ [] hr).symm.trans (by rw [List.append_nil, hr])
      rw [List.append_nil] at hself
      obtain ⟨hrest, hlast⟩ := ih hself ((tail?_append _ _ hr).symm.trans h)
      simp only [takes, hkept]
      refine ⟨?_, hlast⟩
      calc held ++ r ++ rs.flatten
          = encode (take (held ++ r)).1 ++ (kept ++ rs.flatten) := by
            rw [← List.append_assoc, ← heq]
        _ = encode ((take (held ++ r)).1 ++ (takes kept rs).1) ++ tail := by
            rw [hrest, encode_append, List.append_assoc]

/-- **What is kept of a text that arrives in pieces.** Of any bytes the text is taken that those
removed spell, and the bytes that are kept are some first ones of a character, one to three and not
all.  However the bytes of a text are cut into pieces, what is taken of the first pieces, followed
by what is kept, is all that has arrived; it is the beginning of the text, so it has no replacement
that the text has not; and behind the last piece all of it has been taken and nothing is kept. -/
theorem take_exact :
    (∀ s : List UInt8, ∃ removed, s = removed ++ (take s).2 ∧ (take s).1 = decode removed ∧
      ((take s).2 = [] ∨ Cut (take s).2 ∧ 1 ≤ (take s).2.length ∧ (take s).2.length ≤ 3)) ∧
    ∀ (text : List Char) (pieces : List (List UInt8)), pieces.flatten = encode text →
      (∀ done rest, pieces = done ++ rest →
        encode (takes [] done).1 ++ (takes [] done).2 = done.flatten ∧ (takes [] done).1 <+: text) ∧
      takes [] pieces = (text, []) := by
  refine ⟨fun s => ?_, fun text pieces hpieces => ⟨fun done rest hdone => ?_, ?_⟩⟩
  · obtain ⟨removed, hs, htext, hkept⟩ := take_spec s
    exact ⟨removed, hs, htext, hkept.imp_right fun hcut => ⟨hcut, hcut.length_le⟩⟩
  · have hall : done.flatten ++ rest.flatten = encode text := by
      rw [← hpieces, hdone, List.flatten_append]
    obtain ⟨tail, htail⟩ := exists_tail?_of_append ((congrArg tail? hall).trans (tail?_encode text))
    rw [← List.nil_append done.flatten] at htail
    obtain ⟨heq, hkept⟩ := takes_of_tail? rfl htail
    rw [List.nil_append] at heq
    refine ⟨by rw [hkept, ← heq], ?_⟩
    have htext : text = (takes [] done).1 ++ decode (tail ++ rest.flatten) := calc
      text = decode (encode text) := (decode_encode text).symm
      _ = decode (encode (takes [] done).1 ++ (tail ++ rest.flatten)) := by
        rw [← hall, heq, List.append_assoc]
      _ = (takes [] done).1 ++ decode (tail ++ rest.flatten) := decode_encode_append _ _
    exact ⟨_, htext.symm⟩
  · have htail : tail? ([] ++ pieces.flatten) = some [] := by
      rw [List.nil_append, hpieces, tail?_encode]
    obtain ⟨heq, hkept⟩ := takes_of_tail? rfl htail
    rw [List.nil_append, List.append_nil, hpieces] at heq
    have htext : text = (takes [] pieces).1 := by
      rw [← decode_encode text, heq, decode_encode]
    exact Prod.ext htext.symm hkept

example : takes [] [[0x68, 0xC3], [0xA9, 0x21]] = ("hé!".toList, []) := by decide +kernel

end RoverPilot.Text.Utf8
