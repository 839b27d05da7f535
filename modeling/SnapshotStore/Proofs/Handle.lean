import SnapshotStore.Handle

/-!
Handles survive being packed into a number: kind, generation and slot come out as they
went in. In the number they lie side by side, so that each can be cut out of it, and every number
whose top byte is the tag of a kind stands for one handle.
-/

namespace SnapshotStore

namespace HandleKind

theorem ofTag?_tag (kind : HandleKind) : ofTag? kind.tag = some kind := by
  cases kind <;> rfl

theorem ofTag?_eq_some {tag : Nat} {kind : HandleKind} (h : ofTag? tag = some kind) :
    tag = kind.tag := by
  unfold ofTag? at h
  split at h <;> first | (obtain rfl := Option.some.inj h; rfl) | simp at h

theorem ofTag?_eq_none {tag : Nat} :
    ofTag? tag = none ↔ ∀ kind : HandleKind, tag ≠ kind.tag := by
  rw [Option.eq_none_iff_forall_ne_some]
  constructor
  · rintro h kind rfl
    exact h kind (ofTag?_tag kind)
  · exact fun h kind hkind => h kind (ofTag?_eq_some hkind)

theorem tag_bounds (kind : HandleKind) : 1 ≤ kind.tag ∧ kind.tag ≤ 6 := by
  cases kind <;> decide

end HandleKind

namespace Handle

theorem encode_toNat (h : Handle) : h.encode.toNat =
    h.kind.tag * 0x100000000000000 + h.generation * 0x100000000 + h.slot := by
  have hs := h.slot_lt
  have hg := h.generation_lt
  have ht := h.kind.tag_bounds
  rw [encode, UInt64.toNat_ofNat', Nat.mod_eq_of_lt]
  omega

theorem ext {h k : Handle} (kind : h.kind = k.kind) (slot : h.slot = k.slot)
    (generation : h.generation = k.generation) : h = k := by
  cases h
  cases k
  simp_all

/-- A number that packs the parts of a handle gives them back. -/
theorem unpack (h : Handle) {n : Nat}
    (hn : n = h.kind.tag * 0x100000000000000 + h.generation * 0x100000000 + h.slot) :
    n / 0x100000000000000 = h.kind.tag ∧ ofParts h.kind n (n / 0x100000000) = h := by
  have hs := h.slot_lt
  have hg := h.generation_lt
  have hslot : n % 0x100000000 = h.slot := by omega
  have hgeneration : n / 0x100000000 % 0x1000000 = h.generation := by omega
  exact ⟨by omega, ext rfl hslot hgeneration⟩

theorem decode?_encode (h : Handle) : decode? h.encode = some h := by
  obtain ⟨hkind, hparts⟩ := h.unpack h.encode_toNat
  unfold decode?
  rw [hkind, HandleKind.ofTag?_tag, Option.map_some, hparts]

/-- No two numbers stand for one handle. -/
theorem encode_of_decode? {raw : UInt64} {h : Handle} (hd : decode? raw = some h) :
    h.encode = raw := by
  obtain ⟨kind, hkind, rfl⟩ := Option.map_eq_some_iff.mp hd
  have htag := HandleKind.ofTag?_eq_some hkind
  rw [← UInt64.toNat_inj, encode_toNat]
  simp only [ofParts, ← htag]
  omega

theorem encode_inj {h k : Handle} : h.encode = k.encode ↔ h = k := by
  refine ⟨fun he => ?_, congrArg encode⟩
  rw [← Option.some_inj, ← decode?_encode, ← decode?_encode, he]

theorem encode_ne_zero (h : Handle) : h.encode ≠ 0 := by
  have ht := h.kind.tag_bounds
  rw [ne_eq, ← UInt64.toNat_inj, encode_toNat, UInt64.toNat_zero]
  omega

theorem ofParts_fields (kind : HandleKind) {slot generation : Nat} (hs : slot < 0x100000000)
    (hg : generation < 0x1000000) : (ofParts kind slot generation).kind = kind ∧
      (ofParts kind slot generation).slot = slot ∧
      (ofParts kind slot generation).generation = generation :=
  ⟨rfl, Nat.mod_eq_of_lt hs, Nat.mod_eq_of_lt hg⟩

/-- Parts that fit are told apart by the number that they are packed into. -/
theorem ofParts_inj {kind : HandleKind} {slot slot' generation generation' : Nat}
    (hs : slot < 0x100000000) (hs' : slot' < 0x100000000) (hg : generation < 0x1000000)
    (hg' : generation' < 0x1000000)
    (h : (ofParts kind slot generation).encode = (ofParts kind slot' generation').encode) :
    slot = slot' ∧ generation = generation' := by
  obtain ⟨-, hslot, hgeneration⟩ := ofParts_fields kind hs hg
  obtain ⟨-, hslot', hgeneration'⟩ := ofParts_fields kind hs' hg'
  have hsame := encode_inj.mp h
  exact ⟨hslot.symm.trans (hsame ▸ hslot'), hgeneration.symm.trans (hsame ▸ hgeneration')⟩

theorem ofParts_self (h : Handle) : ofParts h.kind h.slot h.generation = h :=
  ext rfl (Nat.mod_eq_of_lt h.slot_lt) (Nat.mod_eq_of_lt h.generation_lt)

/-! Bits -/

/-- A field that fits is moved to its place without losing a bit. -/
theorem shift_toNat {n : Nat} {place : UInt64} (h : n <<< (place.toNat % 64) < UInt64.size) :
    (UInt64.ofNat n <<< place).toNat = n <<< (place.toNat % 64) := by
  have hle : n ≤ n <<< (place.toNat % 64) := by
    rw [Nat.shiftLeft_eq]
    exact Nat.le_mul_of_pos_right n (Nat.two_pow_pos _)
  rw [UInt64.toNat_shiftLeft, UInt64.toNat_ofNat_of_lt' (Nat.lt_of_le_of_lt hle h)]
  exact Nat.mod_eq_of_lt h

/-- The fields stand in bits of their own. -/
theorem encode_eq_or (h : Handle) : h.encode =
    UInt64.ofNat h.kind.tag <<< 56 ||| UInt64.ofNat h.generation <<< 32 |||
      UInt64.ofNat h.slot := by
  have ht := h.kind.tag_bounds
  have hg := h.generation_lt
  have hs := h.slot_lt
  have htag : (UInt64.ofNat h.kind.tag <<< 56).toNat = h.kind.tag <<< 56 :=
    shift_toNat (show h.kind.tag <<< 56 < 0x10000000000000000 by omega)
  have hgeneration : (UInt64.ofNat h.generation <<< 32).toNat = h.generation <<< 32 :=
    shift_toNat (show h.generation <<< 32 < 0x10000000000000000 by omega)
  have hslot : (UInt64.ofNat h.slot).toNat = h.slot :=
    UInt64.toNat_ofNat_of_lt' (Nat.lt_trans hs (by decide))
  have hbelow : h.generation <<< 32 + h.slot < 2 ^ 56 := by omega
  rw [← UInt64.toNat_inj, UInt64.toNat_or, UInt64.toNat_or, htag, hgeneration, hslot]
  calc h.encode.toNat
    _ = h.kind.tag <<< 56 + (h.generation <<< 32 + h.slot) := by
        rw [encode_toNat, Nat.shiftLeft_eq, Nat.shiftLeft_eq, Nat.add_assoc]
    _ = h.kind.tag <<< 56 ||| (h.generation <<< 32 ||| h.slot) := by
        rw [Nat.shiftLeft_add_eq_or_of_lt hbelow, Nat.shiftLeft_add_eq_or_of_lt hs]
    _ = h.kind.tag <<< 56 ||| h.generation <<< 32 ||| h.slot := (Nat.or_assoc ..).symm

theorem topByte_toNat (raw : UInt64) : (raw >>> 56).toNat = raw.toNat / 0x100000000000000 := by
  rw [UInt64.toNat_shiftRight]
  exact Nat.shiftRight_eq_div_pow ..

theorem decode?_eq_none {raw : UInt64} :
    decode? raw = none ↔ ∀ kind : HandleKind, (raw >>> 56).toNat ≠ kind.tag := by
  rw [decode?, Option.map_eq_none_iff, HandleKind.ofTag?_eq_none, topByte_toNat]

/-- Each field of a handle is cut out of the number. -/
theorem fields_of_decode? {raw : UInt64} {h : Handle} (hd : decode? raw = some h) :
    h.kind.tag = (raw >>> 56).toNat ∧ h.generation = (raw >>> 32 &&& 0xFFFFFF).toNat ∧
      h.slot = (raw &&& 0xFFFFFFFF).toNat := by
  obtain ⟨kind, hkind, rfl⟩ := Option.map_eq_some_iff.mp hd
  have htag : kind.tag = (raw >>> 56).toNat := by
    rw [topByte_toNat, HandleKind.ofTag?_eq_some hkind]
  have hgeneration : (raw >>> 32 &&& 0xFFFFFF).toNat =
      raw.toNat / 0x100000000 % 0x1000000 := by
    rw [UInt64.toNat_and, UInt64.toNat_shiftRight, Nat.shiftRight_eq_div_pow]
    exact Nat.and_two_pow_sub_one_eq_mod _ 24
  have hslot : (raw &&& 0xFFFFFFFF).toNat = raw.toNat % 0x100000000 := by
    rw [UInt64.toNat_and]
    exact Nat.and_two_pow_sub_one_eq_mod _ 32
  exact ⟨htag, hgeneration.symm, hslot.symm⟩

/-- Handles and the numbers whose top byte is the tag of a kind stand for each other. Every kind,
slot and generation that fit are packed side by side into a number that is not zero and gives them
back; a number that gives a handle is the one that this is packed into; and it gives none exactly
if its top byte is no tag. So handles with one number are the same in all their parts. -/
theorem encode_bijective :
    (∀ (kind : HandleKind) (slot generation : Nat),
      slot < 0x100000000 → generation < 0x1000000 →
      let h := ofParts kind slot generation
      (h.kind = kind ∧ h.slot = slot ∧ h.generation = generation) ∧
        h.encode =
          UInt64.ofNat kind.tag <<< 56 ||| UInt64.ofNat generation <<< 32 ||| UInt64.ofNat slot ∧
        decode? h.encode = some h ∧ h.encode ≠ 0) ∧
    (∀ raw h, decode? raw = some h → h.encode = raw ∧
      h.kind.tag = (raw >>> 56).toNat ∧ h.generation = (raw >>> 32 &&& 0xFFFFFF).toNat ∧
        h.slot = (raw &&& 0xFFFFFFFF).toNat) ∧
    (∀ raw, decode? raw = none ↔ ∀ kind : HandleKind, (raw >>> 56).toNat ≠ kind.tag) ∧
    ∀ h k : Handle, h.encode = k.encode →
      h.kind = k.kind ∧ h.slot = k.slot ∧ h.generation = k.generation := by
  refine ⟨fun kind slot generation hs hg => ?_,
    fun raw h hd => ⟨encode_of_decode? hd, fields_of_decode? hd⟩, fun raw => decode?_eq_none,
    fun h k he => ?_⟩
  · intro h
    obtain ⟨hkind, hslot, hgeneration⟩ := ofParts_fields kind hs hg
    have hbits := h.encode_eq_or
    rw [hkind, hslot, hgeneration] at hbits
    exact ⟨⟨hkind, hslot, hgeneration⟩, hbits, decode?_encode h, encode_ne_zero h⟩
  · obtain rfl := encode_inj.mp he
    exact ⟨rfl, rfl, rfl⟩

/-- The largest number that stands for a handle, and the one above it. -/
theorem last_handle :
    let h := ofParts .envelope 0xFFFFFFFF 0xFFFFFF
    h.encode = 0x6FFFFFFFFFFFFFF ∧ decode? 0x6FFFFFFFFFFFFFF = some h ∧
      decode? 0x700000000000000 = none := by
  intro h
  obtain ⟨hpacked, -, hnone, -⟩ := encode_bijective
  obtain ⟨-, hbits, hback, -⟩ := hpacked .envelope 0xFFFFFFFF 0xFFFFFF (by decide) (by decide)
  have hraw : h.encode = 0x6FFFFFFFFFFFFFF := hbits.trans (by decide)
  exact ⟨hraw, hraw ▸ hback, (hnone _).mpr fun kind => by cases kind <;> decide⟩

end Handle
end SnapshotStore
