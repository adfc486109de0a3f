/-
The 31-byte task record (`encode_task_record`, `src/ptlab/wire.py`), and which
arguments it tells apart.

The title stands in a field of 24 bytes and nothing says how long it is, so the
zeros behind it and the NULs at its end are the same bytes. `titleField_inj` is all
there is to that: two titles of the right length share their field exactly if they
are the same up to NULs at the end.
-/
import Mathlib.Data.List.DropRight
import Ptlab.Wire.Record

set_option autoImplicit false

open Bytes Utf8 Ptlab.Protocol

namespace Ptlab.Wire

/-! ## Titles in their field -/

/-- A title without the NULs at its end. -/
def trimNuls (title : List Char) : List Char := title.rdropWhile (· = nul)

theorem trimNuls_append_nuls (title : List Char) (n : ℕ) :
    trimNuls (title ++ List.replicate n nul) = trimNuls title := by
  unfold trimNuls
  induction n with
  | zero => rw [List.replicate_zero, List.append_nil]
  | succ n ih =>
      rw [List.replicate_succ', ← List.append_assoc, List.rdropWhile_concat_pos _ _ _ (by simp), ih]

/-- A title is its trimmed part and NULs. -/
theorem trimNuls_split (title : List Char) :
    ∃ n, title = trimNuls title ++ List.replicate n nul := by
  refine ⟨(title.rtakeWhile (· = nul)).length, ?_⟩
  have hnuls : title.rtakeWhile (· = nul) =
      List.replicate (title.rtakeWhile (· = nul)).length nul := by
    rw [List.eq_replicate_iff]
    exact ⟨rfl, fun c hc => by simpa using List.mem_rtakeWhile_imp hc⟩
  rw [← hnuls]
  exact List.rdropWhile_append_rtakeWhile.symm

theorem encode_nuls (n : ℕ) : encode (List.replicate n nul) = List.replicate n 0 := by
  have hnul : String.utf8EncodeChar nul = [0] := by decide
  induction n with
  | zero => rfl
  | succ n ih => rw [List.replicate_succ, encode_cons, hnul, ih]; rfl

/-- The field is that of the trimmed title. -/
theorem titleField_trim {title : List Char} (h : (encode title).length ≤ 23) :
    titleField (encode title) = titleField (encode (trimNuls title)) := by
  obtain ⟨n, hsplit⟩ := trimNuls_split title
  generalize trimNuls title = front at hsplit
  subst hsplit
  rw [encode_append, encode_nuls, List.length_append, List.length_replicate] at h
  unfold titleField
  rw [encode_append, encode_nuls, List.length_append, List.length_replicate, List.append_assoc,
    ← List.replicate_add]
  congr 2
  omega

/-- **Two titles share their field** exactly if they differ in NULs at the end at
most. -/
theorem titleField_inj {s t : List Char} (hs : (encode s).length ≤ 23)
    (ht : (encode t).length ≤ 23) :
    titleField (encode s) = titleField (encode t) ↔ trimNuls s = trimNuls t := by
  constructor
  · intro h
    have hdecode : ∀ u : List Char, decode (titleField (encode u)) =
        u ++ List.replicate (24 - (encode u).length) nul := fun u => decode_whole u _
    have hread := congrArg (fun field => trimNuls (decode field)) h
    simp only [hdecode, trimNuls_append_nuls] at hread
    exact hread
  · intro h
    rw [titleField_trim hs, titleField_trim ht, h]

/-! ## `encode_task_record` -/

/-- What the encoder raises. -/
inductive TaskError where
  | ValueError (message : String)
  | StructError
  | AssertionError (message : String)
  deriving DecidableEq, Repr

/-- The arguments of `encode_task_record`. -/
@[ext] structure TaskArgs where
  identifier : ℤ
  order : ℤ
  title : String
  last_modified : ℤ
  deriving DecidableEq

def encode_task_record (a : TaskArgs) : Except TaskError (List UInt8) :=
  if ¬ (0 ≤ a.identifier ∧ a.identifier ≤ 0xFFFF) then
    .error (.ValueError "task identifier must be a u16")
  else if ¬ (0 ≤ a.order ∧ a.order ≤ 0xFF) then
    .error (.ValueError "task order must be a u8")
  else
    let title_bytes := encode a.title.toList
    if title_bytes.length > 23 then
      .error (.ValueError "task title exceeds 23 UTF-8 bytes")
    else
      let field := title_bytes ++ List.replicate (24 - title_bytes.length) 0
      -- `pack("<HB24sI", ...)` checks the range of its last argument itself
      if ¬ (0 ≤ a.last_modified ∧ a.last_modified ≤ 0xFFFFFFFF) then
        .error .StructError
      else
        let record := le16 a.identifier.toNat ++ [UInt8.ofNat a.order.toNat] ++ field ++
          le32 a.last_modified.toNat
        if record.length ≠ RECORDS.task_record_size then
          .error (.AssertionError "task encoder layout drifted")
        else .ok record

/-- The arguments the encoder accepts. -/
structure TaskArgs.Accepted (a : TaskArgs) : Prop where
  identifier : 0 ≤ a.identifier ∧ a.identifier ≤ 0xFFFF
  order : 0 ≤ a.order ∧ a.order ≤ 0xFF
  title : (encode a.title.toList).length ≤ 23
  last_modified : 0 ≤ a.last_modified ∧ a.last_modified ≤ 0xFFFFFFFF

/-- The record of accepted arguments. -/
def TaskArgs.bytes (a : TaskArgs) : List UInt8 :=
  le16 a.identifier.toNat ++ [UInt8.ofNat a.order.toNat] ++ titleField (encode a.title.toList) ++
    le32 a.last_modified.toNat

/-- **The encoder** accepts what is in range and writes its layout. The assertion at
its end never fails. -/
theorem encode_task_record_ok_iff (a : TaskArgs) (b : List UInt8) :
    encode_task_record a = .ok b ↔ a.Accepted ∧ b = a.bytes := by
  have hlength : (encode a.title.toList).length ≤ 23 →
      a.bytes.length = RECORDS.task_record_size := by
    intro htitle
    unfold TaskArgs.bytes
    rw [List.length_append, List.length_append, titleField_length htitle]
    rfl
  constructor
  · intro h
    unfold encode_task_record at h
    dsimp only at h
    split_ifs at h with h1 h2 h3 h4 h5
    injection h with h
    exact ⟨⟨by omega, by omega, by omega, by omega⟩, h.symm⟩
  · rintro ⟨⟨h1, h2, h3, h4⟩, rfl⟩
    unfold encode_task_record
    dsimp only
    rw [if_neg (not_not.mpr h1), if_neg (not_not.mpr h2), if_neg (by omega),
      if_neg (not_not.mpr h4)]
    exact if_neg (not_not.mpr (hlength h3))

/-- **Two records are the same** exactly if the numbers are, and the titles up to NULs
at the end. -/
theorem TaskArgs.bytes_inj {a b : TaskArgs} (ha : a.Accepted) (hb : b.Accepted) :
    a.bytes = b.bytes ↔ a.identifier = b.identifier ∧ a.order = b.order ∧
      a.last_modified = b.last_modified ∧ trimNuls a.title.toList = trimNuls b.title.toList := by
  rw [← titleField_inj ha.title hb.title]
  constructor
  · intro h
    unfold TaskArgs.bytes at h
    -- the pieces have the same lengths on both sides
    have hfields : (titleField (encode a.title.toList)).length =
        (titleField (encode b.title.toList)).length := by
      rw [titleField_length ha.title, titleField_length hb.title]
    obtain ⟨hfront, hmodified⟩ := List.append_inj' h rfl
    obtain ⟨hhead, htitle⟩ := List.append_inj' hfront hfields
    obtain ⟨hid, horder⟩ := List.append_inj' hhead rfl
    have h1 := ha.identifier
    have h2 := hb.identifier
    have h3 := ha.order
    have h4 := hb.order
    have h5 := ha.last_modified
    have h6 := hb.last_modified
    have hid := congrArg (fun field => read16 (field ++ []) 0) hid
    have horder := congrArg (fun field => (field.headD 0).toNat) horder
    have hmodified := congrArg (fun field => read32 (field ++ []) 0) hmodified
    dsimp only [List.headD_cons] at hid horder hmodified
    rw [read16_le16 (by omega), read16_le16 (by omega)] at hid
    rw [toNat_ofNat_lt (by omega), toNat_ofNat_lt (by omega)] at horder
    rw [read32_le32 (by omega), read32_le32 (by omega)] at hmodified
    exact ⟨by omega, by omega, by omega, htitle⟩
  · rintro ⟨hid, horder, hmodified, htitle⟩
    unfold TaskArgs.bytes
    rw [hid, horder, hmodified, htitle]

end Ptlab.Wire
