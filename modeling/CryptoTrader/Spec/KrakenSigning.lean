import CryptoTrader.Lib.Base64
import CryptoTrader.Spec.Nonce

/-! The signature of a private call (`feed_handler/kraken/kraken_signing.cpp`): the form
body, Base64, and what is hashed. The two hash functions are OpenSSL's; its block coder for
Base64 is modelled. -/

namespace CryptoTrader.Kraken

open Nonce

/-- `std::isalnum` in the C locale. -/
def isAlnum (byte : UInt8) : Bool :=
  (48 ≤ byte && byte ≤ 57) || (65 ≤ byte && byte ≤ 90) || (97 ≤ byte && byte ≤ 122)

def isUnreserved (character : UInt8) : Bool :=
  isAlnum character || character = 45 || character = 95 || character = 46 || character = 126

def kHexDigits : Bytes := ascii "0123456789ABCDEF"

/-- One round of the loop of `UrlEncode`. -/
def encodeCharacter (character : UInt8) : Bytes :=
  if isUnreserved character then [character]
  else if character = 32 then [43]
  else [37, kHexDigits.getD (character.toNat / 16) 0, kHexDigits.getD (character.toNat % 16) 0]

def urlEncode (value : Bytes) : Bytes := value.flatMap encodeCharacter

def encodePostData (params : List (Bytes × Bytes)) : Bytes :=
  params.foldl (fun body param => (if body = [] then [] else body ++ [38]) ++ urlEncode param.1 ++ [61] ++ urlEncode param.2)
    []

def base64Encode (data : Bytes) : Bytes := if data = [] then [] else Base64.encode data

/-- OpenSSL's block decoder. It drops a dash that ends the text, but never one of the first
three characters. -/
def evpDecodeBlock (text : Bytes) : Option Bytes :=
  Base64.decodeBlock (text.take 3 ++ (text.drop 3).rdropWhile (· = 45))

/-- The decoder rounds up to whole groups; the padding at the end says how much of the last
one is filler. -/
def base64Decode (text : Bytes) : Except Bytes Bytes :=
  let cleaned := text.filter fun character => !isSpace character
  if cleaned = [] ∨ cleaned.length % 4 ≠ 0 then
    .error (ascii "kraken: base64 input is not a multiple of 4 characters")
  else
    match evpDecodeBlock cleaned with
    | none => .error (ascii "kraken: base64 input is not valid base64")
    | some decoded => .ok (decoded.take (decoded.length - (cleaned.rtakeWhile (· = Base64.pad)).length))

/-- `Sha256` and `HmacSha512` (key and message), or the text of OpenSSL's failure. -/
structure Crypto where
  sha256 : Bytes → Except Bytes Bytes
  hmacSha512 : Bytes → Bytes → Except Bytes Bytes

/-- What is signed is the path and the digest of the nonce and the body. -/
def signature (crypto : Crypto) (urlPath nonce postData secret : Bytes) : Except Bytes Bytes := do
  let bodyDigest ← crypto.sha256 (nonce ++ postData)
  let signature ← crypto.hmacSha512 secret (urlPath ++ bodyDigest)
  return base64Encode signature

def signPrivateRequest (crypto : Crypto) (urlPath nonce postData apiSecretB64 : Bytes) : Except Bytes Bytes :=
  match base64Decode apiSecretB64 with
  | .error _ => .error (ascii "kraken: API secret is not valid base64")
  | .ok secret => signature crypto urlPath nonce postData secret

end CryptoTrader.Kraken
