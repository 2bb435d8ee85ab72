import NfsClient.Xdr.Decodes

/-!
# Decoding undoes encoding

A sequence of encoder calls is a list of items, a sequence of decoder calls a list of shapes;
the arm of a union is again such a sequence.  Matching calls read the items back, consume
exactly their encoding, and fail on every strict prefix of it.
-/

namespace NfsClient.Xdr

open NfsClient.Lib

/-! ## Sequences of items -/

/-- A value that one call of an encoder method encodes.  The arm of a union is again a
sequence of such calls. -/
inductive Item
  | uint32 (v : UInt32)
  | int32 (v : Int32)
  | uint64 (v : UInt64)
  | int64 (v : Int64)
  | bool (v : Bool)
  | varOpaque (p : Bytes)
  | string (s : Bytes)
  | fixedOpaque (p : Bytes)
  | union (discriminant : UInt32) (arm : List Item)

mutual

/-- The call that encodes an item. -/
def Item.encode : Item → Bytes
  | .uint32 v => Encoder.uint32 v
  | .int32 v => Encoder.int32 v
  | .uint64 v => Encoder.uint64 v
  | .int64 v => Encoder.int64 v
  | .bool v => Encoder.bool v
  | .varOpaque p => Encoder.varOpaque p
  | .string s => Encoder.string s
  | .fixedOpaque p => Encoder.fixedOpaque p
  | .union discriminant arm => Encoder.union discriminant (encodeItems arm)

/-- The calls that encode a sequence of items. -/
def encodeItems : List Item → Bytes
  | [] => []
  | i :: is => i.encode ++ encodeItems is

end

/-- A call of a decoder method: `FixedOpaque` is told the length, and `Union` which calls
decode the arm that a discriminant selects. -/
inductive Shape
  | uint32
  | int32
  | uint64
  | int64
  | bool
  | varOpaque
  | string
  | fixedOpaque (n : ℕ)
  | union (arms : UInt32 → List Shape)

mutual

/-- What a call decodes. -/
def Shape.decode : Shape → Dec Item
  | .uint32 => Item.uint32 <$> Decoder.uint32
  | .int32 => Item.int32 <$> Decoder.int32
  | .uint64 => Item.uint64 <$> Decoder.uint64
  | .int64 => Item.int64 <$> Decoder.int64
  | .bool => Item.bool <$> Decoder.bool
  | .varOpaque => (fun p => Item.varOpaque (p.getD [])) <$> Decoder.varOpaque
  | .string => Item.string <$> Decoder.string
  | .fixedOpaque n => (fun p => Item.fixedOpaque (p.getD [])) <$> Decoder.fixedOpaque n
  | .union arms =>
      (fun p => Item.union p.1 (p.2.getD [])) <$> Decoder.union fun disc => decodeItems (arms disc)

/-- What a sequence of calls decodes. -/
def decodeItems : List Shape → Dec (List Item)
  | [] => return []
  | s :: ss => do
      let i ← s.decode
      let is ← decodeItems ss
      return i :: is

end

mutual

/-- The decoder call matches the encoder call: it is the method of the same name, with the
length of the fixed-length data, and with matching calls for the arm of a union. -/
def Item.Matches : Item → Shape → Prop
  | .uint32 _, .uint32 | .int32 _, .int32 | .uint64 _, .uint64 | .int64 _, .int64
  | .bool _, .bool | .varOpaque _, .varOpaque | .string _, .string => True
  | .fixedOpaque p, .fixedOpaque n => p.length = n
  | .union discriminant arm, .union arms => MatchItems arm (arms discriminant)
  | _, _ => False

/-- The decoder calls match the encoder calls one by one. -/
def MatchItems : List Item → List Shape → Prop
  | [], [] => True
  | i :: is, s :: ss => i.Matches s ∧ MatchItems is ss
  | _, _ => False

end

mutual

/-- The variable-length data of an item is within the limit of the decoder. -/
def Item.Within (m : UInt32) : Item → Prop
  | .varOpaque p | .string p => Decoder.Within m p
  | .union _ arm => ItemsWithin m arm
  | _ => True

/-- The variable-length data of all items is within the limit of the decoder. -/
def ItemsWithin (m : UInt32) : List Item → Prop
  | [] => True
  | i :: is => i.Within m ∧ ItemsWithin m is

end

mutual

/-- One call decodes what its counterpart encoded. -/
lemma Item.decodes {m : UInt32} : ∀ (i : Item) (s : Shape), i.Matches s → i.Within m →
    Decodes m s.decode i.encode i
  | .uint32 v, .uint32, _, _ => (Decoder.decodes_uint32 v).map _
  | .int32 v, .int32, _, _ => (Decoder.decodes_int32 v).map _
  | .uint64 v, .uint64, _, _ => (Decoder.decodes_uint64 v).map _
  | .int64 v, .int64, _, _ => (Decoder.decodes_int64 v).map _
  | .bool v, .bool, _, _ => by
      rw [Item.encode, Encoder.bool_eq]
      exact (Decoder.decodes_bool v).map _
  | .varOpaque p, .varOpaque, _, hw => by
      rw [Item.encode, Encoder.varOpaque_eq]
      exact (Decoder.decodes_varOpaque hw).map _
  | .string p, .string, _, hw => by
      rw [Item.encode, Encoder.string_eq]
      exact (Decoder.decodes_string hw).map _
  | .fixedOpaque p, .fixedOpaque n, h, _ => by
      rw [Item.encode, Encoder.fixedOpaque_eq]
      exact (Decoder.decodes_fixedOpaque h).map _
  | .union disc arm, .union arms, h, hw => by
      have harm := decodeItems_encodeItems arm (arms disc) h hw
      have hu : Decodes m (Decoder.union fun disc => decodeItems (arms disc)) _ _ :=
        Decoder.decodes_union harm
      exact (hu.map _).of_eq (by simp [Item.encode, Encoder.union, Encoder.uint32_eq])

/-- The calls decode what their counterparts encoded. -/
lemma decodeItems_encodeItems {m : UInt32} : ∀ (is : List Item) (ss : List Shape),
    MatchItems is ss → ItemsWithin m is → Decodes m (decodeItems ss) (encodeItems is) is
  | [], [], _, _ => .pure _
  | i :: is, s :: ss, h, hw => by
      have hi := i.decodes s h.1 hw.1
      have his := decodeItems_encodeItems is ss h.2 hw.2
      refine Decodes.of_eq
        (hi.bind (fun j => (his.map (j :: ·)).keeps) (his.map (i :: ·)).single) ?_
      simp [encodeItems]

end

/-! ### Alignment -/

mutual

lemma Item.four_dvd_length : ∀ i : Item, 4 ∣ i.encode.length
  | .uint32 v => ⟨1, Wire.length_uint v⟩
  | .int32 v => ⟨1, Wire.length_uint _⟩
  | .uint64 v => ⟨2, Wire.length_hyper v⟩
  | .int64 v => ⟨2, Wire.length_hyper _⟩
  | .bool v => ⟨1, by rw [Item.encode, Encoder.bool_eq, Wire.length_bool]⟩
  | .varOpaque p => by
      rw [Item.encode, Encoder.varOpaque_eq]
      exact Wire.four_dvd_opaqueVar p
  | .string p => by
      rw [Item.encode, Encoder.string_eq]
      exact Wire.four_dvd_opaqueVar p
  | .fixedOpaque p => by
      rw [Item.encode, Encoder.fixedOpaque_eq]
      exact Wire.four_dvd_opaqueFixed p
  | .union disc arm => by
      rw [Item.encode, Encoder.union, List.length_append]
      exact Nat.dvd_add ⟨1, Wire.length_uint disc⟩ (four_dvd_length_encodeItems arm)

lemma four_dvd_length_encodeItems : ∀ is : List Item, 4 ∣ (encodeItems is).length
  | [] => dvd_zero 4
  | i :: is => by
      rw [encodeItems, List.length_append]
      exact Nat.dvd_add i.four_dvd_length (four_dvd_length_encodeItems is)

end

/-! ### The round trip -/

/-- **Decoding undoes encoding over whole sequences.**  On the output of a sequence of
encoder calls, followed by any trailing bytes, the matching decoder calls yield the same
values in order, without an error, and leave exactly the trailing bytes.  The output is
aligned, and on every strict prefix of it the same calls end with an error. -/
theorem decodeItems_roundTrip {m : UInt32} {is : List Item} {ss : List Shape}
    (hm : MatchItems is ss) (hw : ItemsWithin m is) :
    (∀ rest, decodeItems ss { r := encodeItems is ++ rest, maxLen := m }
        = (is, { r := rest, maxLen := m, err := none })) ∧
      4 ∣ (encodeItems is).length ∧
      ∀ pre, pre <+: encodeItems is → pre ≠ encodeItems is →
        (decodeItems ss { r := pre, maxLen := m }).2.err ≠ none := by
  obtain ⟨hreads, hcuts, -⟩ := decodeItems_encodeItems is ss hm hw
  refine ⟨hreads, four_dvd_length_encodeItems is, fun pre hp hne => ?_⟩
  exact Option.isSome_iff_ne_none.mp (hcuts pre hp hne)

/-- Two items of which the first is a union whose arm holds another union. -/
def nestedItems : List Item :=
  [.union 7 [.string [1, 2, 3, 4, 5], .union 1 [.int32 (-1)]], .bool true]

/-- The calls that decode them. -/
def nestedShapes : List Shape :=
  [.union fun d => if d = 7 then [.string, .union fun _ => [.int32]] else [], .bool]

theorem decodeItems_roundTrip_nested :
    MatchItems nestedItems nestedShapes ∧ ItemsWithin 5 nestedItems ∧
      decodeItems nestedShapes { r := encodeItems nestedItems ++ [9], maxLen := 5 }
        = (nestedItems, { r := [9], maxLen := 5, err := none }) := by
  have hm : MatchItems nestedItems nestedShapes := by
    simp [nestedItems, nestedShapes, MatchItems, Item.Matches]
  have hw : ItemsWithin 5 nestedItems := by
    simp [nestedItems, ItemsWithin, Item.Within, Decoder.Within, Decoder.effMaxLen, input]
  exact ⟨hm, hw, (decodeItems_roundTrip hm hw).1 [9]⟩

end NfsClient.Xdr
