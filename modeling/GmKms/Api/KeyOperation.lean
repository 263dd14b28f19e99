import GmKms.Api.EnvelopeService
import GmKms.Api.KeyService
/-!
# Operations on one key

The methods of the three services that name a key, as operations with the type of
what they return.
-/

namespace GmKms.Api

open Lib Keystore Service

inductive KeyOperation where
  | getKey
  | rotateKey
  | deleteKey
  | exportKey (targetPublicKey : Bytes) (opts : ExportOptions)
  | encrypt (plaintext : Bytes)
  | decrypt (ciphertext : Ciphertext)
  | sign (data : Bytes)
  | verify (data : Bytes) (sig : Signature)
  | hmac (data : Bytes) (aad : Option Bytes)
  | hmacVerify (data : Bytes) (aad : Option Bytes) (expectedMac : Bytes)
  | envelopeEncrypt (plaintext : Bytes)
  | envelopeDecrypt (ciphertext wrappedDek dekNonce dataNonce tag : Bytes)
  | envelopeDecryptWithKekVersion (ciphertext wrappedDek dekNonce dataNonce tag : Bytes) (kekVersion : UInt32)
  | rewrapDek (wrappedDek dekNonce : Bytes) (oldKekVersion : UInt32)

namespace KeyOperation

/-- What the method returns when it succeeds. -/
@[reducible] def Value : KeyOperation → Type
  | getKey | rotateKey => KeyMeta
  | deleteKey => Unit
  | exportKey .. => ExportedKey
  | encrypt .. => Ciphertext
  | decrypt .. | envelopeDecrypt .. | envelopeDecryptWithKekVersion .. => Bytes
  | sign .. => Signature
  | verify .. | hmacVerify .. => Bool
  | hmac .. => Bytes × UInt32
  | envelopeEncrypt .. => EnvelopeEncryptResponse
  | rewrapDek .. => RewrapDekResponse

/-- The method, called for a tenant on a key. -/
def service (crypto : ServiceCrypto) (env : ServiceEnv) (keyId : Uuid) (tenantId : String) :
    (op : KeyOperation) → Service op.Value
  | getKey => KeyService.getKey keyId tenantId
  | rotateKey => KeyService.rotateKey keyId tenantId
  | deleteKey => KeyService.deleteKey keyId tenantId
  | exportKey targetPublicKey opts => KeyService.exportKey crypto env keyId targetPublicKey tenantId opts
  | encrypt plaintext => CryptoService.encrypt env keyId plaintext tenantId
  | decrypt ciphertext => CryptoService.decrypt env keyId ciphertext tenantId
  | sign data => CryptoService.sign env keyId data tenantId
  | verify data sig => CryptoService.verify env keyId data sig tenantId
  | hmac data aad => CryptoService.hmac env crypto keyId data aad tenantId
  | hmacVerify data aad expectedMac => CryptoService.hmacVerify env crypto keyId data aad expectedMac tenantId
  | envelopeEncrypt plaintext => EnvelopeService.encrypt crypto.toCrypto env keyId plaintext tenantId
  | envelopeDecrypt ciphertext wrappedDek dekNonce dataNonce tag =>
    EnvelopeService.decrypt crypto.toCrypto keyId ciphertext wrappedDek dekNonce dataNonce tag tenantId
  | envelopeDecryptWithKekVersion ciphertext wrappedDek dekNonce dataNonce tag kekVersion =>
    EnvelopeService.decryptWithKekVersion crypto.toCrypto keyId ciphertext wrappedDek dekNonce dataNonce tag tenantId
      kekVersion
  | rewrapDek wrappedDek dekNonce oldKekVersion =>
    EnvelopeService.rewrapDek crypto.toCrypto env keyId wrappedDek dekNonce oldKekVersion tenantId

/-- The method on a keystore, alone. -/
def perform (crypto : ServiceCrypto) (env : ServiceEnv) (keyId : Uuid) (tenantId : String) (op : KeyOperation)
    (ks : Software.SoftwareKeystore) : Except ApiAbort op.Value × Software.SoftwareKeystore :=
  runOn crypto.toCrypto env.toUseEnv (op.service crypto env keyId tenantId) ks

end KeyOperation

end GmKms.Api
