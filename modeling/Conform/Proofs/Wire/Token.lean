import Conform.Wire.Token
import Mathlib.Algebra.Order.Ring.Nat

namespace Conform.Wire

theorem length_bigEndian (width n : Nat) : (bigEndian width n).length = width := by
  induction width with
  | zero => rfl
  | succ width ih => rw [bigEndian, List.length_cons, ih]

theorem two_pow_eight_mul (width : Nat) : 2 ^ (8 * width) = 256 ^ width :=
  Nat.pow_mul 2 8 width

theorem foldl_bigEndian (width n start : Nat) :
    (bigEndian width n).foldl (fun m b => 256 * m + b.toNat) start =
      256 ^ width * start + n % 256 ^ width := by
  induction width generalizing start with
  | zero => simp [bigEndian, Nat.mod_one]
  | succ width ih =>
    have hbyte : (UInt8.ofNat (n >>> (8 * width))).toNat = n / 256 ^ width % 256 := by
      rw [UInt8.toNat_ofNat', Nat.shiftRight_eq_div_pow, two_pow_eight_mul]
    rw [bigEndian, List.foldl_cons, ih, hbyte, Nat.pow_succ, Nat.mod_mul, Nat.mul_add,
      Nat.mul_assoc]
    omega

theorem ofBigEndian_bigEndian {width n : Nat} (h : n < 256 ^ width) :
    ofBigEndian (bigEndian width n) = n := by
  rw [ofBigEndian, foldl_bigEndian, Nat.mul_zero, Nat.zero_add, Nat.mod_eq_of_lt h]

theorem ofTwosComplement_bigEndian {width : Nat} {n : Int} (hneg : n < 0)
    (hlow : -(256 ^ width : Nat) ≤ 2 * n) :
    ofTwosComplement (bigEndian width ((256 ^ width : Nat) + n).toNat) = n := by
  have hnat : (((256 ^ width : Nat) + n).toNat : Int) = (256 ^ width : Nat) + n :=
    Int.toNat_of_nonneg (by omega)
  have hlt : ((256 ^ width : Nat) + n).toNat < 256 ^ width := by omega
  unfold ofTwosComplement
  rw [ofBigEndian_bigEndian hlt, length_bigEndian, Nat.one_shiftLeft, two_pow_eight_mul]
  dsimp only
  rw [if_neg (by omega), hnat]
  omega

theorem ofUtf8?_utf8 (s : String) : ofUtf8? (utf8 s) = some s := by
  have hbytes : (⟨(utf8 s).toArray⟩ : ByteArray) = s.toByteArray := by simp [utf8]
  unfold ofUtf8? String.fromUTF8?
  rw [hbytes, dif_pos s.isValidUTF8]
  rfl

namespace Token

/-- The size that is written before the content. -/
def size : Token → Nat
  | text s => (utf8 s).length
  | blob content | extension _ content => content.length
  | array n | map n => n
  | _ => 0

/-- Integers have 64 bits, and natural numbers the least width that holds them. -/
def Shortest : Token → Prop
  | uint width n => ofInt n = uint width n ∧ n < 2 ^ 64
  | sint n => -2 ^ 63 ≤ n ∧ n < 0
  | _ => True

@[simp]
theorem bool_shortest (b : Bool) : (bool b).Shortest :=
  trivial

@[simp]
theorem float_shortest (x : Binary64) : (float x).Shortest :=
  trivial

@[simp]
theorem text_shortest (s : String) : (text s).Shortest :=
  trivial

@[simp]
theorem array_shortest (n : Nat) : (array n).Shortest :=
  trivial

@[simp]
theorem map_shortest (n : Nat) : (map n).Shortest :=
  trivial

theorem ofInt_shortest {n : Int} (hlow : -2 ^ 63 ≤ n) (hhigh : n < 2 ^ 64) :
    (ofInt n).Shortest := by
  cases n with
  | ofNat n => exact ⟨rfl, Int.ofNat_lt.mp hhigh⟩
  | negSucc n => exact ⟨hlow, Int.negSucc_lt_zero n⟩

theorem take_append (content rest : List UInt8) :
    take content.length (content ++ rest) = some (content, rest) := by
  simp [take]

theorem fixed_append (content rest : List UInt8) (make : List UInt8 → Token) :
    fixed content.length make (content ++ rest) = some (make content, rest) := by
  rw [fixed, take_append]
  rfl

theorem sized_bigEndian {width n : Nat} (h : n < 256 ^ width) (make : Nat → Token)
    (rest : List UInt8) : sized width make (bigEndian width n ++ rest) = some (make n, rest) := by
  have hfixed := fixed_append (bigEndian width n) rest fun taken => make (ofBigEndian taken)
  rw [length_bigEndian] at hfixed
  rw [sized, hfixed, ofBigEndian_bigEndian h]

theorem counted_bigEndian {width : Nat} {content : List UInt8} (h : content.length < 256 ^ width)
    (make : List UInt8 → Token) (rest : List UInt8) :
    counted width make (bigEndian width content.length ++ (content ++ rest)) =
      some (make content, rest) := by
  have htake := take_append (bigEndian width content.length) (content ++ rest)
  rw [length_bigEndian] at htake
  simp only [counted, htake, Option.bind_eq_bind, Option.bind_some, ofBigEndian_bigEndian h,
    fixed_append]

theorem countedExtension_bigEndian {width : Nat} {content : List UInt8}
    (h : content.length < 256 ^ width) (kind : UInt8) (rest : List UInt8) :
    countedExtension width (bigEndian width content.length ++ (kind :: content ++ rest)) =
      some (extension kind content, rest) := by
  have htake := take_append (bigEndian width content.length) (kind :: content ++ rest)
  rw [length_bigEndian] at htake
  simp only [countedExtension, htake, Option.bind_eq_bind, Option.bind_some,
    ofBigEndian_bigEndian h]
  exact fixed_append (kind :: content) rest ofKind

/-- A size within the marker, or in the first of three widths that holds it. -/
theorem sizeHead_cases (fixed limit : Nat) (one : Option UInt8) (two four : UInt8) (n : Nat) :
    (n < limit ∧ sizeHead fixed limit one two four n = [UInt8.ofNat (fixed + n)]) ∨
    (∃ marker, one = some marker ∧ n < 256 ∧
      sizeHead fixed limit one two four n = marker :: bigEndian 1 n) ∨
    (n < 65536 ∧ sizeHead fixed limit one two four n = two :: bigEndian 2 n) ∨
    sizeHead fixed limit one two four n = four :: bigEndian 4 n := by
  unfold sizeHead
  split
  next h => exact Or.inl ⟨h, rfl⟩
  next =>
    split
    next marker hlt => exact Or.inr (Or.inl ⟨marker, rfl, of_decide_eq_true hlt, rfl⟩)
    next =>
      split
      next h => exact Or.inr (Or.inr (Or.inl ⟨h, rfl⟩))
      next => exact Or.inr (Or.inr (Or.inr rfl))

/-- A marker of this range says what follows it. -/
theorem read?_marked {marker : UInt8} (h : 0xc0 ≤ marker.toNat ∧ marker.toNat < 0xe0)
    (rest : List UInt8) : read? (marker :: rest) = readMarked marker.toNat rest := by
  simp only [read?]
  rw [if_neg (by omega), if_neg (by omega), if_neg (by omega), if_neg (by omega),
    if_pos (by omega)]

theorem toNat_ofNat {n : Nat} (h : n < 256) : (UInt8.ofNat n).toNat = n := by
  rw [UInt8.toNat_ofNat', Nat.mod_eq_of_lt h]

theorem read?_uint {width n : Nat} (h : (uint width n).Shortest) (rest : List UInt8) :
    read? ((uint width n).bytes ++ rest) = some (uint width n, rest) := by
  obtain ⟨hwidth, hn⟩ := h
  have hwidth : (if n < 128 then 0 else if n < 256 then 1 else if n < 65536 then 2
      else if n < 4294967296 then 4 else 8) = width := by
    simpa [ofInt] using hwidth
  split at hwidth
  next hlt =>
    subst hwidth
    have hmarker := toNat_ofNat (n := n) (by omega)
    simp only [bytes, List.cons_append, List.nil_append, read?, hmarker]
    rw [if_pos hlt]
  next =>
    split at hwidth
    next hlt =>
      subst hwidth
      exact (read?_marked (by decide) _).trans (sized_bigEndian hlt (uint 1) rest)
    next =>
      split at hwidth
      next hlt =>
        subst hwidth
        exact (read?_marked (by decide) _).trans (sized_bigEndian hlt (uint 2) rest)
      next =>
        split at hwidth
        next hlt =>
          subst hwidth
          exact (read?_marked (by decide) _).trans (sized_bigEndian hlt (uint 4) rest)
        next =>
          subst hwidth
          exact (read?_marked (by decide) _).trans (sized_bigEndian hn (uint 8) rest)

theorem fixed_twosComplement (width : Nat) {n : Int} (hneg : n < 0)
    (hlow : -(256 ^ width : Nat) ≤ 2 * n) (rest : List UInt8) :
    fixed width (fun taken => sint (ofTwosComplement taken))
      (bigEndian width ((256 ^ width : Nat) + n).toNat ++ rest) = some (sint n, rest) := by
  have hfixed := fixed_append (bigEndian width ((256 ^ width : Nat) + n).toNat) rest
    fun taken => sint (ofTwosComplement taken)
  rw [length_bigEndian] at hfixed
  rw [hfixed, ofTwosComplement_bigEndian hneg hlow]

theorem read?_sint {n : Int} (h : (sint n).Shortest) (rest : List UInt8) :
    read? ((sint n).bytes ++ rest) = some (sint n, rest) := by
  obtain ⟨hlow, hneg⟩ := h
  rw [bytes, signedBytes]
  split
  next h =>
    have hmarker := toNat_ofNat (n := (256 + n).toNat) (by omega)
    simp only [List.cons_append, List.nil_append, read?, hmarker]
    rw [if_neg (by omega), if_neg (by omega), if_neg (by omega), if_neg (by omega),
      if_neg (by omega)]
    congr 3
    omega
  next =>
    split
    next h =>
      exact (read?_marked (by decide) _).trans
        (fixed_twosComplement 1 hneg (by omega) rest)
    next =>
      split
      next h =>
        exact (read?_marked (by decide) _).trans
          (fixed_twosComplement 2 hneg (by omega) rest)
      next =>
        split
        next h =>
          exact (read?_marked (by decide) _).trans
            (fixed_twosComplement 4 hneg (by omega) rest)
        next =>
          exact (read?_marked (by decide) _).trans
            (fixed_twosComplement 8 hneg (by omega) rest)

/-- A token is read back from its size and what follows, where it is for every width of the size. -/
theorem read?_sizeHead {fixed limit n : Nat} {one : Option UInt8} {two four : UInt8}
    {data rest : List UInt8} {t : Token} {reader : Nat → Reader Token} (hn : n < 2 ^ 32)
    (hfixed : n < limit → read? (UInt8.ofNat (fixed + n) :: data) = some (t, rest))
    (hone : ∀ marker, one = some marker → ∀ cs, read? (marker :: cs) = reader 1 cs)
    (htwo : ∀ cs, read? (two :: cs) = reader 2 cs) (hfour : ∀ cs, read? (four :: cs) = reader 4 cs)
    (hread : ∀ width, n < 256 ^ width → reader width (bigEndian width n ++ data) = some (t, rest)) :
    read? (sizeHead fixed limit one two four n ++ data) = some (t, rest) := by
  rcases sizeHead_cases fixed limit one two four n with
    ⟨hlt, heq⟩ | ⟨marker, hm, hlt, heq⟩ | ⟨hlt, heq⟩ | heq
  · rw [heq, List.singleton_append]
    exact hfixed hlt
  · rw [heq, List.cons_append, hone marker hm]
    exact hread 1 hlt
  · rw [heq, List.cons_append, htwo]
    exact hread 2 hlt
  · rw [heq, List.cons_append, hfour]
    exact hread 4 hn

theorem read?_of_some {marker marker' : UInt8} {reader : Reader Token}
    (h : ∀ cs, read? (marker :: cs) = reader cs) (hm : some marker = some marker')
    (cs : List UInt8) : read? (marker' :: cs) = reader cs :=
  Option.some.inj hm ▸ h cs

theorem read?_text (s : String) (h : (utf8 s).length < 2 ^ 32) (rest : List UInt8) :
    read? ((text s).bytes ++ rest) = some (text s, rest) := by
  have hmake : textOrBlob (utf8 s) = text s := by rw [textOrBlob, ofUtf8?_utf8]
  have hfixed : (utf8 s).length < 32 →
      read? (UInt8.ofNat (0xa0 + (utf8 s).length) :: (utf8 s ++ rest)) =
        some (textOrBlob (utf8 s), rest) := by
    intro hlt
    have hmarker := toNat_ofNat (n := 0xa0 + (utf8 s).length) (by omega)
    simp only [read?, hmarker]
    rw [if_neg (by omega), if_neg (by omega), if_neg (by omega), if_pos (by omega),
      Nat.add_sub_cancel_left, fixed_append]
  rw [bytes, List.append_assoc, ← hmake]
  exact read?_sizeHead h hfixed (fun _ => read?_of_some (read?_marked (by decide)))
    (read?_marked (by decide)) (read?_marked (by decide))
    fun _ hlt => counted_bigEndian hlt textOrBlob rest

theorem read?_blob (content : List UInt8) (h : content.length < 2 ^ 32) (rest : List UInt8) :
    read? ((blob content).bytes ++ rest) = some (blob content, rest) := by
  rw [bytes, List.append_assoc]
  exact read?_sizeHead h (by omega) (fun _ => read?_of_some (read?_marked (by decide)))
    (read?_marked (by decide)) (read?_marked (by decide))
    fun _ hlt => counted_bigEndian hlt blob rest

theorem read?_extension (kind : UInt8) (content : List UInt8) (h : content.length < 2 ^ 32)
    (rest : List UInt8) :
    read? ((extension kind content).bytes ++ rest) = some (extension kind content, rest) := by
  rw [bytes, List.append_assoc]
  exact read?_sizeHead h (by omega) (fun _ => read?_of_some (read?_marked (by decide)))
    (read?_marked (by decide)) (read?_marked (by decide))
    fun _ hlt => countedExtension_bigEndian hlt kind rest

theorem read?_array (n : Nat) (h : n < 2 ^ 32) (rest : List UInt8) :
    read? ((array n).bytes ++ rest) = some (array n, rest) := by
  have hfixed : n < 16 → read? (UInt8.ofNat (0x90 + n) :: rest) = some (array n, rest) := by
    intro hlt
    have hmarker := toNat_ofNat (n := 0x90 + n) (by omega)
    simp only [read?, hmarker]
    rw [if_neg (by omega), if_neg (by omega), if_pos (by omega), Nat.add_sub_cancel_left]
  rw [bytes]
  exact read?_sizeHead h hfixed nofun (read?_marked (by decide)) (read?_marked (by decide))
    fun _ hlt => sized_bigEndian hlt array rest

theorem read?_map (n : Nat) (h : n < 2 ^ 32) (rest : List UInt8) :
    read? ((map n).bytes ++ rest) = some (map n, rest) := by
  have hfixed : n < 16 → read? (UInt8.ofNat (0x80 + n) :: rest) = some (map n, rest) := by
    intro hlt
    have hmarker := toNat_ofNat (n := 0x80 + n) (by omega)
    simp only [read?, hmarker]
    rw [if_neg (by omega), if_pos (by omega), Nat.add_sub_cancel_left]
  rw [bytes]
  exact read?_sizeHead h hfixed nofun (read?_marked (by decide)) (read?_marked (by decide))
    fun _ hlt => sized_bigEndian hlt map rest

theorem read?_float (x : Binary64) (rest : List UInt8) :
    read? ((float x).bytes ++ rest) = some (float x, rest) := by
  have hbits : x.bits.toNat < 256 ^ 8 := x.bits.toNat_lt
  have hfixed := fixed_append (bigEndian 8 x.bits.toNat) rest ofBinary64Bytes
  rw [length_bigEndian] at hfixed
  refine (read?_marked (by decide) _).trans (hfixed.trans ?_)
  rw [ofBinary64Bytes, ofBigEndian_bigEndian hbits, UInt64.ofNat_toNat]

/-- A token is read back from its bytes, and nothing of what follows them. -/
theorem read?_bytes {t : Token} (hsize : t.size < 2 ^ 32) (hint : t.Shortest)
    (rest : List UInt8) : read? (t.bytes ++ rest) = some (t, rest) := by
  cases t with
  | uint width n => exact read?_uint hint rest
  | sint n => exact read?_sint hint rest
  | nil => exact read?_marked (by decide) rest
  | bool b =>
    cases b with
    | false => exact read?_marked (by decide) rest
    | true => exact read?_marked (by decide) rest
  | float x => exact read?_float x rest
  | text s => exact read?_text s hsize rest
  | blob content => exact read?_blob content hsize rest
  | array n => exact read?_array n hsize rest
  | map n => exact read?_map n hsize rest
  | extension kind content => exact read?_extension kind content hsize rest

theorem readAll_bytes {ts : List Token} (h : ∀ t ∈ ts, t.size < 2 ^ 32 ∧ t.Shortest) {fuel : Nat}
    (hfuel : ts.length ≤ fuel) : readAll fuel (Wire.bytes ts) = ts := by
  induction ts generalizing fuel with
  | nil => cases fuel <;> rfl
  | cons t ts ih =>
    obtain ⟨fuel, rfl⟩ : ∃ n, fuel = n + 1 := ⟨fuel - 1, by simp at hfuel; omega⟩
    obtain ⟨ht, hts⟩ := List.forall_mem_cons.mp h
    have hread := read?_bytes ht.1 ht.2 (Wire.bytes ts)
    unfold Wire.bytes at hread ih ⊢
    simp only [List.flatMap_cons, readAll, hread, ih hts (Nat.le_of_succ_le_succ hfuel)]

theorem length_le_length_bytes {ts : List Token} (h : ∀ t ∈ ts, t.size < 2 ^ 32 ∧ t.Shortest) :
    ts.length ≤ (Wire.bytes ts).length := by
  induction ts with
  | nil => exact Nat.zero_le _
  | cons t ts ih =>
    obtain ⟨ht, hts⟩ := List.forall_mem_cons.mp h
    have hpos : 0 < t.bytes.length := by
      have hread := read?_bytes ht.1 ht.2 []
      rw [List.length_pos_iff]
      intro hnil
      simp [hnil, read?] at hread
    have hrest := ih hts
    simp only [Wire.bytes, List.flatMap_cons, List.length_append, List.length_cons] at hrest ⊢
    omega

end Token

/-- Tokens are read back from their bytes. -/
theorem tokens_bytes {ts : List Token} (h : ∀ t ∈ ts, t.size < 2 ^ 32 ∧ t.Shortest) :
    tokens (bytes ts) = ts :=
  Token.readAll_bytes h (Token.length_le_length_bytes h)

end Conform.Wire
