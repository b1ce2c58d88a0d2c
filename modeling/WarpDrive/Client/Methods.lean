import WarpDrive.Client.Clients

/-!
# What the methods are for

`WriteMethod` and `ReadMethod` list the methods of the clients, each with the call that it is for.
It is what a client promises; `Client.Arrival` proves that the methods keep it.
-/

namespace WarpDrive.Client

/-! ## The contracts -/

/-- What a client is a client of. -/
inductive Kind where
  | security (t : VerificationType)
  | verification (t : VerificationType)
  | handler (t : VerificationType)
  | projectRoot
deriving DecidableEq, Repr

/-- The functions that the contract exports. -/
def Kind.exports (f : Formats) : Kind → List Export
  | security _ => Interface.warpDrive f ++ Interface.security
  | verification _ => Interface.warpDrive f ++ Interface.verification
  | handler t => Interface.warpDrive f ++ Interface.handler t
  | projectRoot => Interface.warpDrive f ++ Interface.projectRoot f

/-- The contract reads the call from what is sent. -/
def Arrives (exports : List Export) (message : Message) (c : Call) : Prop :=
  ∃ functionName args, message = .ok (functionName, args) ∧
    Interface.read exports functionName args = some c

/-! ## Methods that write -/

/-- The methods that read: the client, the method, when its arguments can be encoded, the
call, what the contract answers for the value that the method returns, and which of
these values the method can return. -/
inductive ReadMethod (f : Formats) :
    {α : Type} → Kind → Read α → Prop → Call → (α → Val) → (α → Prop) → Prop
  | admin (kind : Kind) :
      ReadMethod f kind (WarpdriveClient.admin f) True .admin .address fun _ => True
  | pendingAdmin (kind : Kind) :
      ReadMethod f kind (WarpdriveClient.pendingAdmin f) True .pendingAdmin .optAddress
        fun _ => True
  | version (kind : Kind) :
      ReadMethod f kind (WarpdriveClient.version f) True .version .string fun _ => True
  | getTotalWeight (t : VerificationType) :
      ReadMethod f (.security t) SecurityClient.getTotalWeight True .getTotalWeight .u64
        fun _ => True
  | getTotalWeightAt (t : VerificationType) (referenceBlock : UInt32) :
      ReadMethod f (.security t) (SecurityClient.getTotalWeightAt referenceBlock) True
        (.getTotalWeightAt referenceBlock.toNat) .u64 fun _ => True
  | getSignerWeight (t : VerificationType) (key : t.PubKey) :
      ReadMethod f (.security t) (SecurityClient.getSignerWeight key) True
        (.getSignerWeight key.toArray) .u64 fun _ => True
  | getSignerWeightAt (t : VerificationType) (key : t.PubKey) (referenceBlock : UInt32) :
      ReadMethod f (.security t) (SecurityClient.getSignerWeightAt key referenceBlock) True
        (.getSignerWeightAt key.toArray referenceBlock.toNat) .u64 fun _ => True
  | getSignerWeights (t : VerificationType) (keys : List t.PubKey) :
      ReadMethod f (.security t) (SecurityClient.getSignerWeights keys) (keys.length ≤ u32Max)
        (.getSignerWeights (keys.map BytesN.toArray)) .u64s fun _ => True
  | getSignerWeightsAt (t : VerificationType) (keys : List t.PubKey) (referenceBlock : UInt32) :
      ReadMethod f (.security t) (SecurityClient.getSignerWeightsAt keys referenceBlock)
        (keys.length ≤ u32Max)
        (.getSignerWeightsAt (keys.map BytesN.toArray) referenceBlock.toNat) .u64s fun _ => True
  | requiredWeight (t : VerificationType) :
      ReadMethod f (.security t) SecurityClient.requiredWeight True .requiredWeight .u64
        fun _ => True
  | requiredWeightAt (t : VerificationType) (referenceBlock : UInt32) :
      ReadMethod f (.security t) (SecurityClient.requiredWeightAt referenceBlock) True
        (.requiredWeightAt referenceBlock.toNat) .u64 fun _ => True
  | thresholdNumerator (t : VerificationType) :
      ReadMethod f (.security t) SecurityClient.thresholdNumerator True .thresholdNumerator .u64
        fun _ => True
  | thresholdDenominator (t : VerificationType) :
      ReadMethod f (.security t) SecurityClient.thresholdDenominator True .thresholdDenominator
        .u64 fun _ => True
  | listSigners (t : VerificationType) :
      ReadMethod f (.security t) (SecurityClient.listSigners t.keyLength) True .listSigners
        (fun infos => .signers (infos.map fun info => (info.key.toArray, info.weight)))
        fun _ => True
  | securityContract (t : VerificationType) :
      ReadMethod f (.verification t) (VerificationClient.securityContract f) True
        .securityContract .address (f.isContract ·)
  | verifierRequiredWeight (t : VerificationType) :
      ReadMethod f (.verification t) VerificationClient.requiredWeight True .requiredWeight .u64
        fun _ => True
  | signerWeight (t : VerificationType) (signerPubkey : t.PubKey) :
      ReadMethod f (.verification t) (VerificationClient.signerWeight signerPubkey) True
        (.signerWeight signerPubkey.toArray) .u64 fun _ => True
  | checkOne (t : VerificationType) (envelope : Bytes) (signature : t.Signature)
      (signerPubkey : t.PubKey) (referenceBlock : Option UInt32) :
      ReadMethod f (.verification t)
        (VerificationClient.checkOne envelope signature signerPubkey referenceBlock)
        (envelope.length ≤ u32Max)
        (.checkOne envelope signature.toArray signerPubkey.toArray
          (referenceBlock.map UInt32.toNat)) .u64 fun _ => True
  | verificationContract (t : VerificationType) :
      ReadMethod f (.handler t) (HandlerClient.verificationContract f) True
        .verificationContract .address (f.isContract ·)
  | payload (t : VerificationType) (eventId : BytesN 20) :
      ReadMethod f (.handler t) (HandlerClient.payload eventId) True (.payload eventId.toArray)
        .optBytes fun _ => True
  | rootSecurityContract :
      ReadMethod f .projectRoot (ProjectRootClient.securityContract f) True .securityContract
        .address (f.isContract ·)
  | rootVerificationContract :
      ReadMethod f .projectRoot (ProjectRootClient.verificationContract f) True
        .verificationContract .address (f.isContract ·)
  | projectSpecRepo :
      ReadMethod f .projectRoot ProjectRootClient.projectSpecRepo True .projectSpecRepo .string
        fun _ => True
  | verificationType :
      ReadMethod f .projectRoot ProjectRootClient.verificationType True .verificationType
        .verificationType fun _ => True
  | listHandlers :
      ReadMethod f .projectRoot (ProjectRootClient.listHandlers f) True .listHandlers .addresses
        fun handlers => ∀ a ∈ handlers, f.isContract a

end WarpDrive.Client
