import QuickConnect.Firmware.Population
import QuickConnect.Lib.PrefixCode

/-! The serial output as bytes: notifications of one line, and the certificate and the thing
name between bookends. -/
namespace QuickConnect.Firmware
open Text PrefixCode

def utilSerialCertBookend : Str := Text.bytes "DEVICE_CERT"

def utilSerialThingNameBookend : Str := Text.bytes "DEVICE_THING_NAME"

def prvUtilSerialSendData (bookend data : Str) : Str :=
  [newLine] ++ bookend ++ Text.bytes "_START" ++ [newLine] ++ data ++ [newLine] ++ bookend ++
    Text.bytes "_END" ++ [newLine]

def prvUtilSerialSendNotify (notification : Str) : Str := notification ++ [newLine]

/-- What printf makes of a string that may be NULL. -/
def printfString (text : Option Str) : Str := text.getD (Text.bytes "(null)")

def Line.bytes : Line → Str
  | .wifiConnected => prvUtilSerialSendNotify (Text.bytes "DEVICE_WIFI_CONNECTED")
  | .wifiDisconnected => prvUtilSerialSendNotify (Text.bytes "DEVICE_WIFI_DISCONNECTED")
  | .privKeyAndCsrGen => prvUtilSerialSendNotify (Text.bytes "DEVICE_PRIV_KEY_AND_CSR_GEN")
  | .privKeyAndCsrFail => prvUtilSerialSendNotify (Text.bytes "DEVICE_PRIV_KEY_AND_CSR_FAIL")
  | .privKeyAndCsrSuccess => prvUtilSerialSendNotify (Text.bytes "DEVICE_PRIV_KEY_AND_CSR_SUCCESS")
  | .selfClaimPerf => prvUtilSerialSendNotify (Text.bytes "DEVICE_SELF_CLAIM_PERF")
  | .selfClaimFail => prvUtilSerialSendNotify (Text.bytes "DEVICE_SELF_CLAIM_FAIL")
  | .selfClaimSuccess => prvUtilSerialSendNotify (Text.bytes "DEVICE_SELF_CLAIM_SUCCESS")
  | .cert text => prvUtilSerialSendData utilSerialCertBookend (printfString text)
  | .thingName text => prvUtilSerialSendData utilSerialThingNameBookend (printfString text)

/-- The text is there, and no line of it is the bookend behind it. -/
def Framed (bookend : Str) (text : Option Str) : Prop :=
  ∃ t, text = some t ∧ Unmarked newLine (bookend ++ Text.bytes "_END") t

def Line.Framed : Line → Prop
  | .cert text => Firmware.Framed utilSerialCertBookend text
  | .thingName text => Firmware.Framed utilSerialThingNameBookend text
  | _ => True

/-- The part of a line in front of its text. -/
def Line.head : Line → Str
  | .cert _ => [newLine] ++ utilSerialCertBookend ++ Text.bytes "_START" ++ [newLine]
  | .thingName _ => [newLine] ++ utilSerialThingNameBookend ++ Text.bytes "_START" ++ [newLine]
  | line => line.bytes

/-- The line without its text. -/
def Line.untold : Line → Line
  | .cert _ => .cert none
  | .thingName _ => .thingName none
  | line => line

def everyLine : List Line :=
  [.wifiConnected,.wifiDisconnected,.privKeyAndCsrGen,.privKeyAndCsrFail,.privKeyAndCsrSuccess,
    .selfClaimPerf,.selfClaimFail,.selfClaimSuccess,.cert none,.thingName none]

theorem everyLine_free : ∀ a ∈ everyLine, ∀ b ∈ everyLine, a.head <+: b.head → a = b := by decide

theorem Line.untold_mem (line : Line) : line.untold ∈ everyLine := by
  cases line <;> simp [Line.untold,everyLine]

theorem Line.untold_head (line : Line) : line.untold.head = line.head := by
  cases line <;> rfl

theorem sendData_marked (bookend data : Str) : prvUtilSerialSendData bookend data =
    [newLine] ++ bookend ++ Text.bytes "_START" ++ [newLine] ++
      (data ++ mark newLine (bookend ++ Text.bytes "_END")) := by
  simp [prvUtilSerialSendData,mark]

theorem Line.head_front (line : Line) : line.head <+: line.bytes := by
  cases line with
  | cert text =>
    rw [Line.bytes,sendData_marked]
    exact List.prefix_append _ _
  | thingName text =>
    rw [Line.bytes,sendData_marked]
    exact List.prefix_append _ _
  | _ => exact List.prefix_rfl

theorem Line.bytes_filled (line : Line) : line.bytes ≠ [] := by
  cases line <;> simp [Line.bytes,prvUtilSerialSendData,prvUtilSerialSendNotify]

theorem framed_front {bookend : Str} (plain : newLine ∉ bookend ++ Text.bytes "_END")
    {text text' : Option Str} (framed : Framed bookend text) (framed' : Framed bookend text')
    (front : prvUtilSerialSendData bookend (printfString text) <+:
      prvUtilSerialSendData bookend (printfString text')) : text = text' := by
  obtain ⟨t,rfl,_⟩ := framed
  obtain ⟨t',rfl,unmarked⟩ := framed'
  rw [sendData_marked,sendData_marked,List.prefix_append_right_inj] at front
  exact congrArg some (unmarked.unique plain front)

theorem lines_free : Free Line.Framed Line.bytes := by
  intro a b framed framed' front
  have heads : a.untold = b.untold := by
    rcases List.prefix_or_prefix_of_prefix (a.head_front.trans front) b.head_front with
      shorter | longer
    · rw [← a.untold_head,← b.untold_head] at shorter
      exact everyLine_free _ a.untold_mem _ b.untold_mem shorter
    · rw [← a.untold_head,← b.untold_head] at longer
      exact (everyLine_free _ b.untold_mem _ a.untold_mem longer).symm
  cases a <;> cases b <;> cases heads
  case cert.cert.refl text text' =>
    exact congrArg Line.cert (framed_front (by decide) framed framed' front)
  case thingName.thingName.refl text text' =>
    exact congrArg Line.thingName (framed_front (by decide) framed framed' front)
  all_goals rfl

/-- PEM has no underscore, which a bookend has. -/
theorem framed_pem {bookend text : Str} (plain : (95 : UInt8) ∉ text) :
    Framed bookend (some text) := by
  refine ⟨text,rfl,fun inside => ?_⟩
  have underscore : (95 : UInt8) ∈ mark newLine (bookend ++ Text.bytes "_END") := by
    have ending : (95 : UInt8) ∈ Text.bytes "_END" := by decide
    simp [mark,ending]
  have there := inside.subset underscore
  have other : (95 : UInt8) ≠ newLine := by decide
  simp [plain,other] at there

/-- What is printed is read in one way only, and so is what was printed so far: one output
begins with another only where it went on from there. -/
theorem serial_readable (lines lines' : List Line) (framed : ∀ line ∈ lines, line.Framed)
    (framed' : ∀ line ∈ lines', line.Framed)
    (front : lines.flatMap Line.bytes <+: lines'.flatMap Line.bytes) : lines <+: lines' :=
  lines_free.stream Line.bytes_filled framed framed' front

def somePem : Str := Text.bytes "-----BEGIN CERTIFICATE-----\nMIIC\n-----END CERTIFICATE-----\n"

def reported : List Line :=
  [.selfClaimPerf,.selfClaimSuccess,.cert (some somePem),.thingName (some (thingNameText someMac 7))]

theorem reported_framed : ∀ line ∈ reported, line.Framed := by
  intro line inside
  simp only [reported,List.mem_cons,List.not_mem_nil,or_false] at inside
  rcases inside with rfl | rfl | rfl | rfl
  · trivial
  · trivial
  · exact framed_pem (by decide)
  · exact framed_pem (by decide)

theorem serial_readable_reported : reported.take 3 <+: reported := by
  apply serial_readable (reported.take 3) reported
  · exact fun line inside => reported_framed line (List.mem_of_mem_take inside)
  · exact reported_framed
  · decide

end QuickConnect.Firmware
