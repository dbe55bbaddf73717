import CandyDrop.Config.Choice

/-!
# What checks of a collection can find
-/

namespace CandyDrop

/-- A fault of a collection or of the chosen storage. -/
inductive CheckFault where
  | nameTooLong
  | symbolTooLong
  | urlTooLong
  | invalidCreatorAddress (text : String)
  | missingCreatorAddress
  /-- The shares of the creators are not 100 together. -/
  | creatorShares
  | sellerFee (basisPoints : UInt16)
  | noCreators
  | tooManyCreators (found most : Nat)
  | bundleNotMainnet
  | missingArweaveJwk
  | missingIpfsCredentials
  | missingAwsBucket
  | unknownStorage (name : String)
  deriving DecidableEq

namespace CheckFault

/-- The text that the user sees. -/
def message : CheckFault → String
  | nameTooLong => "Name exceeds 32 chars."
  | symbolTooLong => "Symbol exceeds 10 chars."
  | urlTooLong => "Url exceeds 200 chars."
  | invalidCreatorAddress text => "Creator address: '" ++ text ++ "' is invalid."
  | missingCreatorAddress => "Creator address is missing"
  | creatorShares => "Combined creators' share does not equal 100%."
  | sellerFee basisPoints =>
    "Seller fee basis points value '" ++ basisPoints.toNat.repr
      ++ "' is invalid: must be between 0 and 10,000."
  | noCreators => "Missing creators field"
  | tooManyCreators found most =>
    "Too many creators: " ++ found.repr ++ ", the maximum is " ++ most.repr
  | bundleNotMainnet =>
    "The arweave-bundle storage option only works on mainnet. For devnet, please use either arweave, ipfs or aws options"
  | missingArweaveJwk =>
    "Path to Arweave JWK wallet file (arweaveJwk) must be provided when using arweave-bundle"
  | missingIpfsCredentials =>
    "IPFS selected as storage option but Infura project id or secret key were not provided."
  | missingAwsBucket =>
    "AWS selected as storage option but existing bucket name (awsS3Bucket) not provided."
  | unknownStorage name => Storage.refusal name

end CheckFault

end CandyDrop
