import AibomWebhook.Signatures

/-! For which keys the watcher accepts what the scripts sign. The scripts strip the key
file of whitespace and do not sign with a blank key; the watcher takes the bytes of
the Secret as they are. -/

namespace AibomWebhook.SignerKeys
open PostprocessData Sha256 Signatures

/-- With these bytes in the Secret, mounted as the key file, all that is signed is accepted, and there is
a signature whenever the watcher demands one. -/
def Agree (key : Bytes) : Prop :=
  (∀ payload signature, signPayload (some key) payload = some signature → verifySignature key payload signature = true) ∧
    ∀ payload, (signPayload (some key) payload).isSome = true

/-! The signatures. -/

section Keys
variable {key : Bytes}

theorem signPayload_filled (filled : strip key ≠ []) (payload : String) :
    signPayload (some key) payload = some (encodeToString (hmac (strip key) payload.toUTF8.toList)) := by
  simp only [signPayload, if_neg filled]

theorem encodeToString_ne_empty {bytes : Bytes} (filled : bytes ≠ []) : encodeToString bytes ≠ "" := by
  intro empty
  have decoded := decodeString_encodeToString bytes
  rw [empty] at decoded
  have nothing : decodeString "" = some [] := rfl
  rw [nothing] at decoded
  exact filled (Option.some.inj decoded).symm

theorem verifySignature_encoded (payload : String) (signing : Bytes) :
    verifySignature key payload (encodeToString (hmac signing payload.toUTF8.toList)) = true ↔
      hmac signing payload.toUTF8.toList = hmac key payload.toUTF8.toList := by
  have filled : hmac signing payload.toUTF8.toList ≠ [] := by
    intro empty
    have length := length_hmac signing payload.toUTF8.toList
    rw [empty] at length
    cases length
  simp only [verifySignature, if_neg (encodeToString_ne_empty filled), decodeString_encodeToString, decide_eq_true_eq]

theorem agree_iff_hmac : Agree key ↔
    strip key ≠ [] ∧ ∀ payload : String, hmac (strip key) payload.toUTF8.toList = hmac key payload.toUTF8.toList := by
  constructor
  · rintro ⟨accepted, signed⟩
    have filled : strip key ≠ [] := by
      intro blank
      have unsigned := signed ""
      simp [signPayload, blank] at unsigned
    exact ⟨filled, fun payload => (verifySignature_encoded payload (strip key)).mp
      (accepted payload _ (signPayload_filled filled payload))⟩
  · rintro ⟨filled, same⟩
    constructor
    · intro payload signature signed
      rw [signPayload_filled filled, Option.some.injEq] at signed
      rw [← signed]
      exact (verifySignature_encoded payload (strip key)).mpr (same payload)
    · intro payload
      rw [signPayload_filled filled]
      rfl

/-! The keys. -/

/-- What is stripped is whitespace, and so not zero. -/
theorem strip_split (key : Bytes) : ∃ front back, key = front ++ strip key ++ back ∧
    (∀ byte ∈ front, isSpace byte = true) ∧ ∀ byte ∈ back, isSpace byte = true := by
  refine ⟨key.takeWhile isSpace, (key.dropWhile isSpace).rtakeWhile isSpace, ?_, fun byte member => ?_, fun byte member => ?_⟩
  · rw [strip, List.append_assoc, List.rdropWhile_append_rtakeWhile, List.takeWhile_append_dropWhile]
  · exact List.mem_takeWhile_imp member
  · exact List.mem_rtakeWhile_imp member

theorem strip_eq_of_countP (same : (strip key).countP (· ≠ 0) = key.countP (· ≠ 0)) : strip key = key := by
  obtain ⟨front, back, split, first, last⟩ := strip_split key
  have solid : ∀ byte : UInt8, isSpace byte = true → byte ≠ 0 := by
    rintro byte space rfl
    exact absurd space (by decide)
  have all (part : Bytes) (spaces : ∀ byte ∈ part, isSpace byte = true) : part.countP (· ≠ 0) = part.length :=
    List.countP_eq_length.mpr fun byte member => by simpa using solid byte (spaces byte member)
  have counted := congrArg (List.countP (· ≠ 0)) split
  rw [List.countP_append, List.countP_append, all front first, all back last] at counted
  have none : front = [] ∧ back = [] := by
    constructor <;> refine List.eq_nil_of_length_eq_zero ?_ <;> omega
  rw [none.1, none.2] at split
  simpa using split.symm

theorem length_strip_le (key : Bytes) : (strip key).length ≤ key.length := by
  obtain ⟨front, back, split, -, -⟩ := strip_split key
  have lengths := congrArg List.length split
  rw [List.length_append, List.length_append] at lengths
  omega

/-- A key of one block that is stripped of anything fills another block. -/
theorem blockKey_strip_iff (short : key.length ≤ 64) : blockKey (strip key) = blockKey key ↔ strip key = key := by
  constructor
  · intro same
    have counted := congrArg (List.countP (· ≠ 0)) same
    rw [countP_blockKey ((length_strip_le key).trans short), countP_blockKey short] at counted
    exact strip_eq_of_countP counted
  · intro same
    rw [same]

/-- What the scripts sign is accepted exactly with a key that is not blank and loses nothing when it is stripped,
unless SHA-256 takes two keys for one. -/
theorem agree_iff (key : Bytes) : Agree key ↔ strip key ≠ [] ∧ (strip key = key ∨
    (64 < key.length ∧ blockKey (strip key) = blockKey key) ∨
    ∀ payload : String, Collision (outerText (strip key) payload.toUTF8.toList) (outerText key payload.toUTF8.toList)) := by
  rw [agree_iff_hmac]
  refine and_congr_right fun _ => ?_
  simp only [hmac_eq_iff]
  by_cases same : blockKey (strip key) = blockKey key
  · simp only [same, true_or, implies_true, and_true, true_iff]
    by_cases short : key.length ≤ 64
    · exact Or.inl ((blockKey_strip_iff short).mp same)
    · exact Or.inr (Or.inl (by omega))
  · have unstripped : strip key ≠ key := fun equal => same (congrArg blockKey equal)
    simp [same, unstripped]

end Keys

/-- A key with a newline at its end, as a file has one. -/
def lineKey : Bytes := "hmac-key\n".toUTF8.toList

/-- The inner digest with the key as it is. -/
def lineInner : Bytes :=
  [76, 61, 204, 0, 109, 227, 18, 80, 98, 11, 112, 146, 139, 236, 36, 45, 130, 153, 127, 142, 100, 48, 53, 168, 2, 12, 128,
    202, 109, 12, 35, 166]

/-- The inner digest with the key without its newline. -/
def strippedInner : Bytes :=
  [223, 255, 50, 83, 122, 224, 231, 52, 101, 91, 208, 16, 222, 203, 245, 138, 131, 252, 170, 200, 212, 121, 254, 162, 2, 86,
    214, 200, 221, 124, 243, 113]

theorem line_digests :
    sum256 ((blockKey lineKey).map (· ^^^ 0x36) ++ "{}".toUTF8.toList) = lineInner ∧
    sum256 ((blockKey (strip lineKey)).map (· ^^^ 0x36) ++ "{}".toUTF8.toList) = strippedInner ∧
    (sum256 ((blockKey lineKey).map (· ^^^ 0x5c) ++ lineInner)).head? = some 224 ∧
    (sum256 ((blockKey (strip lineKey)).map (· ^^^ 0x5c) ++ strippedInner)).head? = some 121 :=
  ⟨by decide +kernel, by decide +kernel, by decide +kernel, by decide +kernel⟩

theorem line_key_disagrees : ¬ ∀ key, Agree key := by
  intro all
  have same := congrArg List.head? ((agree_iff_hmac.mp (all lineKey)).2 "{}")
  obtain ⟨inner, innerStripped, outer, outerStripped⟩ := line_digests
  rw [hmac, hmac, inner, innerStripped, outer, outerStripped] at same
  cases same

end AibomWebhook.SignerKeys
