import BackbonePortal.Credentials

/-!
# Links that read back

A rendered capability link is parsed into what it was rendered from, and a MAC
in hexadecimal into its bytes.
-/

namespace BackbonePortal

/-! ## Bytes and digits -/

def plain (cs : List Char) : List UInt8 := cs.map fun c => UInt8.ofNat c.toNat

theorem encode_low {c : Char} (h : c.toNat < 128) : String.utf8EncodeChar c = [UInt8.ofNat c.toNat] := by
  have hsize : c.utf8Size = 1 := by
    rw [Char.utf8Size_eq_one_iff, UInt32.le_iff_toNat_le]
    exact Nat.le_of_lt_succ h
  rw [String.utf8EncodeChar_eq_singleton hsize]
  rfl

theorem bytes_eq_plain {s : String} (h : ∀ c ∈ s.toList, c.toNat < 128) : bytes s = plain s.toList := by
  unfold bytes plain
  generalize s.toList = cs at h ⊢
  induction cs with
  | nil => rfl
  | cons c cs ih =>
    rw [List.flatMap_cons, List.map_cons, encode_low (h c List.mem_cons_self), ih fun d hd =>
      h d (List.mem_cons_of_mem c hd)]
    rfl

theorem digitOf_reads {v : Nat} (hv : v < 16) : hexVal (UInt8.ofNat (digitOf v).toNat) = some v := by
  have : ∀ v < 16, hexVal (UInt8.ofNat (digitOf v).toNat) = some v := by decide
  exact this v hv

theorem digitOf_toNat {v : Nat} (hv : v < 16) : (digitOf v).toNat < 128 := by
  have : ∀ v < 16, (digitOf v).toNat < 128 := by decide
  exact this v hv

theorem mem_hexDigits {n v : Nat} {c : Char} (h : c ∈ hexDigits n v) : ∃ d < 16, c = digitOf d := by
  induction n generalizing v with
  | zero => cases h
  | succ n ih =>
    rcases List.mem_append.mp h with h | h
    · exact ih h
    · exact ⟨v % 16, Nat.mod_lt v (by decide), List.mem_singleton.mp h⟩

theorem ofHexDigits_hexDigits {n v : Nat} (h : v < 16 ^ n) : ofHexDigits (plain (hexDigits n v)) = some v := by
  induction n generalizing v with
  | zero =>
    have hv : v = 0 := by omega
    rw [hv]
    rfl
  | succ n ih =>
    have hdiv : v / 16 < 16 ^ n := by
      rw [Nat.pow_succ] at h
      omega
    have hih := ih hdiv
    unfold ofHexDigits at hih ⊢
    rw [hexDigits, plain, List.map_append, List.foldlM_append]
    change (List.foldlM _ 0 (plain (hexDigits n (v / 16))) >>= _) = _
    rw [hih]
    simp only [List.map_cons, List.map_nil, List.foldlM_cons, List.foldlM_nil,
      digitOf_reads (Nat.mod_lt v (by decide : 0 < 16)),
      Option.bind_eq_bind, Option.bind_some, Option.map_some, Option.pure_def]
    exact congrArg some (by omega)

/-! ## Identifiers -/

theorem parseHyphenated_groups {a b c d e : List UInt8} (ha : a.length = 8)
    (hb : b.length = 4) (hc : c.length = 4)
    (hd : d.length = 4) :
    Uuid.parseHyphenated (a ++ 45 :: (b ++ 45 :: (c ++ 45 :: (d ++ 45 :: e)))) =
      Uuid.ofHex (a ++ b ++ c ++ d ++ e) := by
  simp [Uuid.parseHyphenated, List.getElem?_append, List.drop_append, List.drop_of_length_le, ha, hb, hc, hd]

theorem Uuid.display_toList (u : Uuid) : u.display.toList =
    (hexDigits 32 u.bits.toNat).take 8 ++ '-' :: (((hexDigits 32 u.bits.toNat).drop 8).take 4 ++
      '-' :: (((hexDigits 32 u.bits.toNat).drop 12).take 4 ++
        '-' :: (((hexDigits 32 u.bits.toNat).drop 16).take 4 ++
        '-' :: (hexDigits 32 u.bits.toNat).drop 20))) := by
  simp only [Uuid.display, String.toList_ofList, List.append_assoc, List.cons_append]

theorem Uuid.mem_display {u : Uuid} {c : Char} (h : c ∈ u.display.toList) :
    c = '-' ∨ ∃ d < 16, c = digitOf d := by
  by_cases hc : c = '-'
  · exact .inl hc
  · have hmem : c ∈ u.display.toList.filter (· ≠ '-') := List.mem_filter.mpr ⟨h, decide_eq_true hc⟩
    rw [Uuid.display_filter] at hmem
    exact .inr (mem_hexDigits hmem)

theorem Uuid.parse_display (u : Uuid) : Uuid.parse u.display = some u := by
  have hplain : bytes u.display = plain u.display.toList := bytes_eq_plain fun c hc => by
    rcases Uuid.mem_display hc with rfl | ⟨d, hd, rfl⟩
    · decide
    · exact digitOf_toNat hd
  have hlen := hexDigits_length 32 u.bits.toNat
  have hread : ofHexDigits (plain (hexDigits 32 u.bits.toNat)) = some u.bits.toNat :=
    ofHexDigits_hexDigits u.bits.isLt
  rw [Uuid.display_toList] at hplain
  generalize hds : hexDigits 32 u.bits.toNat = ds at *
  have hbytes : bytes u.display = plain (ds.take 8) ++ 45 :: (plain ((ds.drop 8).take 4) ++
      45 :: (plain ((ds.drop 12).take 4) ++
        45 :: (plain ((ds.drop 16).take 4) ++ 45 :: plain (ds.drop 20)))) := by
    rw [hplain]
    simp only [plain, List.map_append, List.map_cons]
    rfl
  have hgroups : plain (ds.take 8) ++ plain ((ds.drop 8).take 4) ++ plain ((ds.drop 12).take 4) ++
      plain ((ds.drop 16).take 4) ++ plain (ds.drop 20) = plain ds := by
    simp only [plain, ← List.map_append]
    rw [← List.take_add, ← List.take_add, ← List.take_add, List.take_append_drop]
  have hcount : (bytes u.display).length = 36 := by
    rw [hbytes]
    simp [plain, hlen]
  unfold Uuid.parse
  rw [if_neg (by omega), if_pos hcount, hbytes,
    parseHyphenated_groups (by simp [plain, hlen]) (by simp [plain, hlen])
    (by simp [plain, hlen]) (by simp [plain, hlen]), hgroups, Uuid.ofHex, hread]
  simp

/-! ## Numbers -/

theorem digitChar_reads {d : Nat} (h : d < 10) :
    48 ≤ UInt8.ofNat (Nat.digitChar d).toNat ∧ UInt8.ofNat (Nat.digitChar d).toNat ≤ 57 ∧
      (UInt8.ofNat (Nat.digitChar d).toNat).toNat - 48 = d := by
  have : ∀ d < 10, 48 ≤ UInt8.ofNat (Nat.digitChar d).toNat ∧ UInt8.ofNat (Nat.digitChar d).toNat ≤ 57 ∧
      (UInt8.ofNat (Nat.digitChar d).toNat).toNat - 48 = d := by decide
  exact this d h

theorem ofDigits_toDigits (n : Nat) : ofDigits (plain (Nat.toDigits 10 n)) = some n := by
  induction n using Nat.strongRecOn with
  | ind n ih =>
    rw [Nat.toDigits_eq_if (by decide)]
    by_cases hn : n < 10
    · rw [if_pos hn]
      obtain ⟨hlo, hhi, hval⟩ := digitChar_reads hn
      simp only [ofDigits, plain, List.map_cons, List.map_nil, List.foldlM_cons,
        List.foldlM_nil, hlo, hhi, hval, and_self,
        if_true, Option.bind_eq_bind, Option.bind_some, Option.pure_def, Nat.zero_mul, Nat.zero_add]
    · rw [if_neg hn]
      have hih := ih (n / 10) (by omega)
      obtain ⟨hlo, hhi, hval⟩ := digitChar_reads (Nat.mod_lt n (by decide : 0 < 10))
      unfold ofDigits at hih ⊢
      rw [plain, List.map_append, List.foldlM_append]
      change (List.foldlM _ 0 (plain (Nat.toDigits 10 (n / 10))) >>= _) = _
      rw [hih]
      simp only [List.map_cons, List.map_nil, List.foldlM_cons, List.foldlM_nil, hlo, hhi, hval,
        and_self, if_true, Option.bind_eq_bind, Option.bind_some, Option.pure_def]
      exact congrArg some (by omega)

theorem mem_toDigits {n : Nat} {c : Char} (h : c ∈ Nat.toDigits 10 n) : 48 ≤ c.toNat ∧ c.toNat ≤ 57 := by
  have hdigit := Nat.isDigit_of_mem_toDigits (by decide) (by decide) h
  simp only [Char.isDigit, Bool.and_eq_true, decide_eq_true_eq] at hdigit
  exact hdigit

theorem digit_unsigned {c : Char} (h : 48 ≤ c.toNat ∧ c.toNat ≤ 57) :
    UInt8.ofNat c.toNat ≠ 45 ∧ UInt8.ofNat c.toNat ≠ 43 := by
  have : ∀ n < 58, 48 ≤ n → UInt8.ofNat n ≠ 45 ∧ UInt8.ofNat n ≠ 43 := by decide
  exact this c.toNat (by omega) h.1

theorem toString_toList (n : Int) :
    (toString n).toList = if 0 ≤ n then Nat.toDigits 10 n.toNat else '-' :: Nat.toDigits 10 (-n).toNat := by
  rw [Int.toString_eq_repr, Int.repr_eq_if]
  by_cases hn : 0 ≤ n
  · rw [if_pos hn, if_pos hn, Nat.toList_repr]
  · rw [if_neg hn, if_neg hn, String.toList_append, Nat.toList_repr]
    rfl

theorem toString_plain (n : Int) : bytes (toString n) = plain (toString n).toList := by
  apply bytes_eq_plain
  intro c hc
  rw [toString_toList] at hc
  split at hc
  · have := mem_toDigits hc
    omega
  · rcases List.mem_cons.mp hc with rfl | hc
    · decide
    · have := mem_toDigits hc
      omega

theorem parseI64_toString {n : Int} (hlo : -(2 ^ 63) ≤ n) (hhi : n < 2 ^ 63) :
    parseI64 (toString n) = some n := by
  have hbytes := toString_plain n
  rw [toString_toList] at hbytes
  have hrange : -(2 ^ 63) ≤ n ∧ n < 2 ^ 63 := ⟨hlo, hhi⟩
  unfold parseI64
  rw [hbytes]
  by_cases hn : 0 ≤ n
  · rw [if_pos hn]
    have hread := ofDigits_toDigits n.toNat
    have hsign : ∀ b ∈ plain (Nat.toDigits 10 n.toNat), b ≠ 45 ∧ b ≠ 43 := by
      intro b hb
      obtain ⟨c, hc, rfl⟩ := List.mem_map.mp hb
      exact digit_unsigned (mem_toDigits hc)
    have hne : plain (Nat.toDigits 10 n.toNat) ≠ [] := fun h => Nat.toDigits_ne_nil (List.map_eq_nil_iff.mp h)
    generalize plain (Nat.toDigits 10 n.toNat) = ds at hread hsign hne
    have hvalue : Int.ofNat n.toNat = n := Int.toNat_of_nonneg hn
    match ds, hne with
    | [b], _ => simp only [hread, Option.map_some, hvalue, Option.bind_eq_bind, Option.bind_some, if_pos hrange]
    | b :: b' :: bs, _ =>
      obtain ⟨hminus, hplus⟩ := hsign b List.mem_cons_self
      simp only [if_neg hminus, if_neg hplus, hread, Option.map_some, hvalue, Option.bind_eq_bind,
        Option.bind_some, if_pos hrange]
  · rw [if_neg hn]
    have hread := ofDigits_toDigits (-n).toNat
    have hne : plain (Nat.toDigits 10 (-n).toNat) ≠ [] :=
      fun h => Nat.toDigits_ne_nil (List.map_eq_nil_iff.mp h)
    have hminus : plain ('-' :: Nat.toDigits 10 (-n).toNat) = 45 :: plain (Nat.toDigits 10 (-n).toNat) := rfl
    have hvalue : -((-n).toNat : Int) = n := by omega
    rw [hminus]
    generalize plain (Nat.toDigits 10 (-n).toNat) = ds at hread hne
    match ds, hne with
    | d :: ds, _ =>
      dsimp only
      rw [if_pos rfl, hread]
      change (if -(2 ^ 63) ≤ -((-n).toNat : Int) ∧
        -((-n).toNat : Int) < 2 ^ 63 then some (-((-n).toNat : Int)) else none) = _
      rw [hvalue]
      exact if_pos hrange

/-! ## MACs -/

theorem allHex_of_digits {s : String} (h : ∀ c ∈ s.toList, ∃ d < 16, c = digitOf d) : allHex s = true := by
  have hplain : bytes s = plain s.toList := bytes_eq_plain fun c hc => by
    obtain ⟨d, hd, rfl⟩ := h c hc
    exact digitOf_toNat hd
  rw [allHex, hplain, plain, List.all_map, List.all_eq_true]
  intro c hc
  obtain ⟨d, hd, rfl⟩ := h c hc
  simp only [Function.comp_apply, digitOf_reads hd, Option.isSome_some]

theorem mem_hexOf {bs : List UInt8} {c : Char} (h : c ∈ (hexOf bs).toList) : ∃ d < 16, c = digitOf d := by
  rw [hexOf, String.toList_ofList] at h
  obtain ⟨b, -, hb⟩ := List.mem_flatMap.mp h
  have hlt := b.toNat_lt
  simp only [List.mem_cons, List.not_mem_nil, or_false] at hb
  rcases hb with rfl | rfl
  · exact ⟨_, by omega, rfl⟩
  · exact ⟨_, Nat.mod_lt _ (by decide), rfl⟩

theorem bytes_hexOf (bs : List UInt8) :
    bytes (hexOf bs) = plain (bs.flatMap fun b => [digitOf (b.toNat / 16), digitOf (b.toNat % 16)]) := by
  rw [bytes_eq_plain fun c hc => ?_, hexOf, String.toList_ofList]
  obtain ⟨d, hd, rfl⟩ := mem_hexOf hc
  exact digitOf_toNat hd

theorem hexOf_length (bs : List UInt8) : byteLen (hexOf bs) = 2 * bs.length := by
  rw [byteLen, bytes_hexOf, plain, List.length_map]
  induction bs with
  | nil => rfl
  | cons b bs ih =>
    rw [List.flatMap_cons, List.length_append, ih, List.length_cons]
    simp only [List.length_cons, List.length_nil]
    omega

theorem hexDecode_hexOf (bs : List UInt8) : hexDecode (hexOf bs) = some bs := by
  rw [hexDecode, hexOf_length, if_neg (by omega), bytes_hexOf]
  induction bs with
  | nil => rfl
  | cons b bs ih =>
    have hlt := b.toNat_lt
    rw [plain] at ih
    simp only [plain, List.flatMap_cons, List.cons_append, List.nil_append, List.map_cons, hexPairs,
      digitOf_reads (show b.toNat / 16 < 16 by omega), digitOf_reads (show b.toNat % 16 < 16 by omega), ih,
      Option.bind_eq_bind, Option.bind_some, Option.pure_def]
    rw [show b.toNat / 16 * 16 + b.toNat % 16 = b.toNat by omega, UInt8.ofNat_toNat]

theorem bytes_injective {s t : String} (h : bytes s = bytes t) : s = t := by
  have hcode : s.toList.utf8Encode = t.toList.utf8Encode := congrArg List.toByteArray h
  rw [String.utf8Encode_toList, String.utf8Encode_toList] at hcode
  exact String.toByteArray_inj.mp hcode

/-! ## Links -/

theorem digitOf_ne_dot {d : Nat} (hd : d < 16) : digitOf d ≠ '.' := by
  have : ∀ d < 16, digitOf d ≠ '.' := by decide
  exact this d hd

theorem splitAt_dots {a b c d : String} (ha : '.' ∉ a.toList) (hb : '.' ∉ b.toList) (hc : '.' ∉ c.toList)
    (hd : '.' ∉ d.toList) : splitAt '.' (a ++ "." ++ b ++ "." ++ c ++ "." ++ d) = [a, b, c, d] := by
  have hlist : (a ++ "." ++ b ++ "." ++ c ++ "." ++ d).toList =
      a.toList ++ '.' :: (b.toList ++ '.' :: (c.toList ++ '.' :: d.toList)) := by
    simp [String.toList_append]
  rw [splitAt, hlist, List.splitOn_append_cons_self_of_not_mem ha, List.splitOn_append_cons_self_of_not_mem hb,
    List.splitOn_append_cons_self_of_not_mem hc, List.splitOn_eq_singleton hd]
  simp

theorem dot_notMem_toString (n : Int) : '.' ∉ (toString n).toList := by
  rw [toString_toList]
  intro h
  split at h
  · exact absurd (mem_toDigits h).1 (by decide)
  · rcases List.mem_cons.mp h with h | h
    · exact absurd h (by decide)
    · exact absurd (mem_toDigits h).1 (by decide)

theorem mem_nonceOf {bits : BitVec 128} {c : Char} (h : c ∈ (nonceOf bits).toList) :
    ∃ d < 16, c = digitOf d := by
  rw [nonceOf, String.toList_ofList] at h
  exact mem_hexDigits h

theorem nonceOf_ne_empty (bits : BitVec 128) : nonceOf bits ≠ "" := by
  intro h
  have hlen := congrArg (fun s => s.toList.length) h
  simp only [nonceOf, String.toList_ofList, hexDigits_length] at hlen
  cases hlen

theorem dot_notMem_of_allHex {s : String} (h : allHex s = true) : '.' ∉ s.toList := by
  intro hmem
  have hbyte : (46 : UInt8) ∈ bytes s := List.mem_flatMap.mpr ⟨'.', hmem, by decide⟩
  exact absurd (List.all_eq_true.mp h _ hbyte) (by decide)

theorem dot_notMem_hexOf (bs : List UInt8) : '.' ∉ (hexOf bs).toList := by
  intro h
  obtain ⟨d, hd, he⟩ := mem_hexOf h
  exact digitOf_ne_dot hd he.symm

theorem dot_notMem_display (id : Uuid) : '.' ∉ id.display.toList := by
  intro h
  rcases Uuid.mem_display h with h | ⟨d, hd, he⟩
  · exact absurd h (by decide)
  · exact digitOf_ne_dot hd he.symm

theorem byteLen_hexOf {mac : List UInt8} (hmac : mac.length = 32) : byteLen (hexOf mac) = 64 := by
  rw [hexOf_length, hmac]

theorem allHex_hexOf (bs : List UInt8) : allHex (hexOf bs) = true := allHex_of_digits fun _ => mem_hexOf

theorem parseCapability_rendered (id : Uuid) {nonce : String} (hne : nonce ≠ "")
    (hhex : allHex nonce = true) {exp : Int}
    (hlo : -(2 ^ 63) ≤ exp) (hhi : exp < 2 ^ 63) {mac : String} (hlen : byteLen mac = 64)
    (hmac : allHex mac = true) :
    parseCapability (renderLink id nonce exp mac) = some ⟨id, nonce, exp, mac⟩ := by
  have hsplit := splitAt_dots (dot_notMem_display id) (dot_notMem_of_allHex hhex) (dot_notMem_toString exp)
    (dot_notMem_of_allHex hmac)
  have hnonce : ¬(nonce = "" ∨ allHex nonce = false) := by simp [hne, hhex]
  have hmachex : ¬(byteLen mac ≠ 64 ∨ allHex mac = false) := by simp [hlen, hmac]
  unfold parseCapability renderLink
  rw [hsplit]
  simp only [Uuid.parse_display, Option.bind_eq_bind, Option.bind_some, if_neg hnonce,
    parseI64_toString hlo hhi, if_neg hmachex]

/-- **Round trip.** A link with a drawn nonce and a 32-byte MAC parses into its parts. -/
theorem parseCapability_renderLink (id : Uuid) (bits : BitVec 128) {exp : Int}
    (hlo : -(2 ^ 63) ≤ exp) (hhi : exp < 2 ^ 63)
    {mac : List UInt8} (hmac : mac.length = 32) :
    parseCapability (renderLink id (nonceOf bits) exp (hexOf mac)) = some ⟨id, nonceOf bits, exp, hexOf mac⟩ :=
  parseCapability_rendered id (nonceOf_ne_empty bits) (allHex_of_digits fun _ => mem_nonceOf)
    hlo hhi (byteLen_hexOf hmac)
    (allHex_hexOf mac)

end BackbonePortal
