/-! # Descriptors of encrypted data -/

namespace ObjectLedger

/-- The cipher of encrypted data. -/
inductive CipherSuite where
  | aesCounter
  | unknown
deriving DecidableEq, Repr

/-- How the data of one key is encrypted: the wrapped data key, and the name of
the bucket key that wraps it. -/
structure KeyEncryption where
  suite : CipherSuite
  wrappedKey : List UInt8
  initialVector : List UInt8
  keyName : String
  keyVersion : String
deriving DecidableEq, Repr

/-- The key that wraps the data keys of a bucket. -/
structure BucketEncryption where
  keyName : String
  suite : CipherSuite
deriving DecidableEq, Repr

end ObjectLedger
