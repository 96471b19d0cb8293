import ItemSeal.Cipher.Aes
import ItemSeal.Cipher.Ghash

/-!
AES-256 in Galois counter mode, with nonces of twelve bytes and tags of sixteen. `encrypt` hides a
message and authenticates it together with associated data; `decrypt?` takes back what `encrypt`
gave (`decrypt?_encrypt`) and refuses whatever does not carry the tag of its content.

The mode is made for messages and for associated data of at most `2 ^ 36` bytes each, and a
cipher refuses longer ones. Here they are not refused: that they are no longer is a side
condition on whoever encrypts.
-/

namespace ItemSeal

/-- A key of 32 bytes. -/
structure Key where
  bytes : Bytes
  length_eq : bytes.length = 32
  deriving DecidableEq

/-- The key that these bytes are, if they are 32. -/
def Key.ofBytes? (bytes : Bytes) : Option Key :=
  if h : bytes.length = 32 then some ⟨bytes, h⟩ else none

/-- A nonce of twelve bytes. -/
structure Nonce where
  bytes : Bytes
  length_eq : bytes.length = 12
  deriving DecidableEq

/-- The nonce at the front of a byte string, and what follows it. -/
def Nonce.split? (bytes : Bytes) : Option (Nonce × Bytes) :=
  if h : 12 ≤ bytes.length then some (⟨bytes.take 12, by simp [h]⟩, bytes.drop 12) else none

/-- A nonce is split off what it stands in front of. -/
@[simp] theorem Nonce.split?_append (nonce : Nonce) (rest : Bytes) :
    Nonce.split? (nonce.bytes ++ rest) = some (nonce, rest) := by
  have enough : 12 ≤ (nonce.bytes ++ rest).length := by simp [nonce.length_eq]
  rw [Nonce.split?, dif_pos enough]
  simp [← nonce.length_eq]

namespace Gcm

/-- The length of a tag. -/
def tagLength : Nat := 16

/-- The counter block of a nonce and a number. -/
def counterBlock (nonce : Nonce) (n : Nat) : Bytes :=
  nonce.bytes ++ Bytes.ofNat 4 n

/-- As many bytes of keystream as are asked for, or a few more, from counter `n` on. -/
def keystream (keys : List Aes.State) (nonce : Nonce) : (blocks n : Nat) → Bytes
  | 0, _ => []
  | blocks + 1, n =>
      Aes.encryptBlock keys (counterBlock nonce n) ++ keystream keys nonce blocks (n + 1)

/-- The text with the keystream added, from counter 2 on. Doing it twice gives the text back. -/
def crypt (keys : List Aes.State) (nonce : Nonce) (text : Bytes) : Bytes :=
  text.xor (keystream keys nonce ((text.length + 15) / 16) 2)

/-- The tag of an enciphered text and associated data. -/
def tag (keys : List Aes.State) (nonce : Nonce) (associated text : Bytes) : Bytes :=
  let hashKey := Ghash.Block.ofBytes (Aes.encryptBlock keys (List.replicate 16 0))
  (Ghash.hash hashKey associated text).toBytes.xor
    (Aes.encryptBlock keys (counterBlock nonce 1))

/-- The message enciphered, and the tag behind it. Message and associated data are to be of at
most `2 ^ 36` bytes each, which is not checked. -/
def encrypt (key : Key) (nonce : Nonce) (message associated : Bytes) : Bytes :=
  let keys := Aes.roundKeys key.bytes
  let text := crypt keys nonce message
  text ++ tag keys nonce associated text

/-- The message inside, unless the tag is missing or wrong. -/
def decrypt? (key : Key) (nonce : Nonce) (sealed associated : Bytes) : Option Bytes :=
  let keys := Aes.roundKeys key.bytes
  let text := sealed.take (sealed.length - tagLength)
  if sealed.length < tagLength then none
  else if tag keys nonce associated text = sealed.drop (sealed.length - tagLength) then
    some (crypt keys nonce text)
  else none

theorem length_keystream (keys : List Aes.State) (nonce : Nonce) (blocks n : Nat) :
    (keystream keys nonce blocks n).length = 16 * blocks := by
  induction blocks generalizing n with
  | zero => rfl
  | succ blocks ih =>
      simp only [keystream, List.length_append, Aes.length_encryptBlock, ih]
      omega

theorem length_xor (left right : Bytes) :
    (left.xor right).length = min left.length right.length := by
  simp [Bytes.xor]

/-- The enciphered text is as long as the text. -/
@[simp] theorem length_crypt (keys : List Aes.State) (nonce : Nonce) (text : Bytes) :
    (crypt keys nonce text).length = text.length := by
  rw [crypt, length_xor, length_keystream]
  omega

@[simp] theorem length_tag (keys : List Aes.State) (nonce : Nonce) (associated text : Bytes) :
    (tag keys nonce associated text).length = tagLength := by
  simp [tag, length_xor, Ghash.Block.toBytes, tagLength]

/-- Adding a byte string at least as long twice changes nothing. -/
theorem xor_xor_self {text stream : Bytes} (long : text.length ≤ stream.length) :
    (text.xor stream).xor stream = text := by
  induction text generalizing stream with
  | nil => cases stream <;> rfl
  | cons first rest ih =>
      cases stream with
      | nil => simp at long
      | cons s stream =>
          have tail : rest.length ≤ stream.length := by simpa using long
          have head : (first ^^^ s) ^^^ s = first := by
            rw [UInt8.xor_assoc, UInt8.xor_self, UInt8.xor_zero]
          simpa [Bytes.xor, head] using ih tail

/-- Enciphering twice gives the text back. -/
@[simp] theorem crypt_crypt (keys : List Aes.State) (nonce : Nonce) (text : Bytes) :
    crypt keys nonce (crypt keys nonce text) = text := by
  have long : text.length ≤ (keystream keys nonce ((text.length + 15) / 16) 2).length := by
    rw [length_keystream]
    omega
  rw [crypt, length_crypt, crypt, xor_xor_self long]

@[simp] theorem length_encrypt (key : Key) (nonce : Nonce) (message associated : Bytes) :
    (encrypt key nonce message associated).length = message.length + tagLength := by
  simp [encrypt]

/-- What is sealed is opened by the same key, nonce and associated data. -/
@[simp] theorem decrypt?_encrypt (key : Key) (nonce : Nonce) (message associated : Bytes) :
    decrypt? key nonce (encrypt key nonce message associated) associated = some message := by
  have notShort : ¬ (encrypt key nonce message associated).length < tagLength := by
    rw [length_encrypt]
    omega
  have front : (encrypt key nonce message associated).length - tagLength =
      (crypt (Aes.roundKeys key.bytes) nonce message).length := by
    rw [length_encrypt, length_crypt]
    omega
  simp only [decrypt?, notShort, if_false, front]
  simp [encrypt]

end Gcm

end ItemSeal
