import QuickConnect.Claim.NewLine
import QuickConnect.Json.Lookup

/-! handle_claim_verify_response: the certificate that the claim service sent, with the
line breaks of its PEM text put back. -/
namespace QuickConnect.Claim
open Text Jsmn JsonParser

/-- Whether calloc finds room for the tokens and for the certificate. -/
structure Allocations where
  tokens : Bool
  certificate : Bool

def certificateKey : Str := Text.bytes "certificate"

def getSelfClaimCertificate (mod : Module) : Option Str := mod.certificate.bind CString.read

/-- The string, or nothing, copied to the front of zeroed memory. -/
def copied (memory : List UInt8) : Except Failure Str → Option (List UInt8)
  | .error .outside => none
  | .error .fail => some memory
  | .ok s => some (s ++ 0 :: memory.drop (s.length + 1))

def handleClaimVerifyResponse (calloc : Allocations) (payload : Region maxPayloadSize)
    (mod : Module) : Option (EspErr × Module) := do
  let js ← payload.text
  match parseStart calloc.tokens js with
  | .error .outside => none
  | .error .fail => some (.fail,mod)
  | .ok jctx =>
    let mod := mod.parseStarted
    match objGetStrlen jctx certificateKey with
    | .error .outside => none
    -- json_parse_end is not called here.
    | .error .fail => some (.fail,mod)
    | .ok length =>
      let requiredLen := length.toNat + 1
      if calloc.certificate = false then
        some (.noMem,{ mod with certificate := none }.parseEnd)
      else do
        let memory ← copied (List.replicate (requiredLen + 1) 0)
          (objGetString jctx certificateKey requiredLen)
        let mod := mod.parseEnd
        let memory ← unescapeNewLine memory
        some (.ok,{ mod with certificate := some memory })

/-- The response that carries a certificate. -/
def verifyResponse (text : Str) : Str :=
  Text.bytes "\x7b\"certificate\":\"" ++ escape text ++ Text.bytes "\"\x7d"

theorem verifyResponse_object (text : Str) :
    verifyResponse text = objectText (certificateKey,escape text) [] := by
  have opens : Text.bytes "\x7b\"certificate\":\"" =
      123 :: quote :: certificateKey ++ [quote,58,quote] := by decide
  have closes : Text.bytes "\"\x7d" = [quote,125] := by decide
  rw [verifyResponse,opens,closes,objectText,memberText,tailText]
  simp

/-- A text that can be sent: the escapes are only those of its line breaks. -/
structure Sendable (text : Str) : Prop where
  clean : 0 ∉ text
  unquoted : quote ∉ text
  bare : backslash ∉ text

theorem stringBody_plain {text : Str} (plain : Sendable text) : StringBody text := by
  obtain ⟨clean,unquoted,bare⟩ := plain
  induction text with
  | nil => exact .nil
  | cons c text ih =>
    simp only [List.mem_cons,not_or] at clean unquoted bare
    have tail := ih clean.2 unquoted.2 bare.2
    exact .plain (Ne.symm clean.1) (Ne.symm unquoted.1) (Ne.symm bare.1) tail

theorem stringBody_escape {text : Str} (sendable : Sendable text) : StringBody (escape text) := by
  obtain ⟨clean,unquoted,bare⟩ := sendable
  induction text with
  | nil => exact .nil
  | cons byte text ih =>
    simp only [List.mem_cons,not_or] at clean unquoted bare
    have tail := ih clean.2 unquoted.2 bare.2
    by_cases line : byte = newLine
    · subst line
      rw [escape_newLine]
      exact .escape (by decide) tail
    · rw [escape_other line]
      exact .plain (Ne.symm clean.1) (Ne.symm unquoted.1) (Ne.symm bare.1) tail

theorem certificateKey_body : StringBody certificateKey :=
  stringBody_plain ⟨by decide,by decide,by decide⟩

theorem handleClaimVerifyResponse_certificate {text : Str} (sendable : Sendable text)
    {payload : Region maxPayloadSize} (arrived : payload.text = some (verifyResponse text))
    (mod : Module) : ∃ mod', handleClaimVerifyResponse ⟨true,true⟩ payload mod = some (.ok,mod') ∧
      getSelfClaimCertificate mod' = some (unescape (escape text)) := by
  have body := stringBody_escape sendable
  have valid : ∀ x ∈ [(certificateKey,escape text)], StringMember x := by
    intro x inside
    rw [List.mem_singleton.mp inside]
    exact ⟨certificateKey_body,body⟩
  have listed : [(certificateKey,escape text)].lookup certificateKey = some (escape text) := by
    rw [List.lookup_cons,beq_self_eq_true]
  have length := objGetStrlen_object (certificateKey,escape text) [] certificateKey
  have string := objGetString_object (certificateKey,escape text) [] certificateKey
    ((escape text).length + 1)
  rw [listed] at length string
  simp only [Nat.lt_succ_self,if_true] at length string
  have memory : (List.replicate ((escape text).length + 1 + 1) (0 : UInt8)).drop
      ((escape text).length + 1) = [0] := by
    rw [List.drop_replicate,Nat.add_sub_cancel_left]
    rfl
  obtain ⟨last,ran,held⟩ := unescapeNewLine_text body.clean []
  refine ⟨{ mod with certificate := some last },?_,held⟩
  rw [verifyResponse_object] at arrived
  rw [handleClaimVerifyResponse,arrived]
  simp only [Option.bind_eq_bind,Option.bind_some,parseStart_object valid,length,
    Int.toNat_natCast,string,copied,memory]
  rw [if_neg (by decide),ran]
  rfl

/-- The certificate arrives as it was sent exactly when it has no blank line: in the memory
unescape_new_line works on and in the response of the claim service. -/
theorem certificate_received {text : Str} (sendable : Sendable text) :
    (∀ rest, ∃ memory, unescapeNewLine (escape text ++ 0 :: 0 :: rest) = some memory ∧
      (CString.read memory = some text ↔ ¬blankLine <:+: text)) ∧
    ∀ (payload : Region maxPayloadSize) (mod : Module),
      payload.text = some (verifyResponse text) →
      ∃ mod', handleClaimVerifyResponse ⟨true,true⟩ payload mod = some (.ok,mod') ∧
        (getSelfClaimCertificate mod' = some text ↔ ¬blankLine <:+: text) := by
  have round : some (unescape (escape text)) = some text ↔ ¬blankLine <:+: text := by
    rw [Option.some_inj]
    exact unescape_escape sendable.bare
  refine ⟨?_,?_⟩
  · intro rest
    obtain ⟨memory,ran,held⟩ := unescapeNewLine_text (escape_clean sendable.clean) rest
    rw [← held] at round
    exact ⟨memory,ran,round⟩
  · intro payload mod arrived
    obtain ⟨mod',done,held⟩ := handleClaimVerifyResponse_certificate sendable arrived mod
    rw [← held] at round
    exact ⟨mod',done,round⟩

theorem certificate_received_lines :
    ∃ mod', handleClaimVerifyResponse ⟨true,true⟩
        (.holding maxPayloadSize (verifyResponse [65,newLine,66])) ⟨none,0⟩ = some (.ok,mod') ∧
      (getSelfClaimCertificate mod' = some [65,newLine,66] ↔ ¬blankLine <:+: [65,newLine,66]) := by
  have sendable : Sendable [65,newLine,66] := ⟨by decide,by decide,by decide⟩
  apply (certificate_received sendable).2
  apply Region.text_holding
  · decide
  · decide

theorem certificate_garbled :
    ∃ mod', handleClaimVerifyResponse ⟨true,true⟩
        (.holding maxPayloadSize (verifyResponse [65,newLine,newLine,66])) ⟨none,0⟩ =
          some (.ok,mod') ∧
      getSelfClaimCertificate mod' = some [65,newLine,backslash,110,66] ∧
      getSelfClaimCertificate mod' ≠ some [65,newLine,newLine,66] := by
  have sendable : Sendable [65,newLine,newLine,66] := ⟨by decide,by decide,by decide⟩
  have arrived : (Region.holding maxPayloadSize (verifyResponse [65,newLine,newLine,66])).text =
      some (verifyResponse [65,newLine,newLine,66]) := by
    apply Region.text_holding
    · decide
    · decide
  obtain ⟨mod',done,held⟩ := handleClaimVerifyResponse_certificate sendable arrived ⟨none,0⟩
  refine ⟨mod',done,held,?_⟩
  rw [held]
  decide

end QuickConnect.Claim
