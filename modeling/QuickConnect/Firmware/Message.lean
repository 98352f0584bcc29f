import QuickConnect.Claim.VerifyResponse
import QuickConnect.Firmware.Restart
import QuickConnect.Firmware.Told
import QuickConnect.Json.Written

/-! What the device publishes. prvQuickConnectSendingTask prints a temperature into a message, and
networking.c hands the message and the thing name to coreMQTT. -/
namespace QuickConnect.Firmware
open Text Jsmn JsonParser

section Readings

/-- A float as `%f` prints it: a number by its sign and its absolute value in millionths, or a
value that is no number. -/
inductive Reading
  | finite (negative : Bool) (millionths : Nat) (small : millionths < 2 ^ 128 * 1000000)
  | infinite (negative : Bool)
  | nan (negative : Bool)

def digits (n : Nat) : Str := (Nat.toDigits 10 n).map fun c => c.toNat.toUInt8

def decimals (n : Nat) : Str :=
  [n / 100000,n / 10000,n / 1000,n / 100,n / 10,n].map fun k => (48 + k % 10).toUInt8

def signed (negative : Bool) (text : Str) : Str := if negative then 45 :: text else text

def Reading.text : Reading → Str
  | .finite negative millionths _ => signed negative
    (digits (millionths / 1000000) ++ 46 :: decimals (millionths % 1000000))
  | .infinite negative => signed negative [105,110,102]
  | .nan negative => signed negative [110,97,110]

/-- The only reading that does not begin like a JSON value. -/
def Reading.bare : Reading → Bool
  | .infinite negative => !negative
  | _ => false

variable {c : UInt8} {n : Nat} {negative : Bool} {text : Str}

theorem digits_digit (inside : c ∈ digits n) : isDigit c = true :=
  List.all_eq_true.mp (digits_all n) c inside

theorem digits_first (n : Nat) : ∃ c rest, digits n = c :: rest :=
  List.exists_cons_of_ne_nil fun none => Nat.toDigits_ne_nil (List.map_eq_nil_iff.mp none)

theorem decimals_digit (inside : c ∈ decimals n) : isDigit c = true := by
  have every : ∀ k < 10, isDigit (48 + k).toUInt8 = true := by decide
  obtain ⟨k,_,rfl⟩ := List.mem_map.mp inside
  exact every _ (Nat.mod_lt _ (by decide))

theorem signed_mem (inside : c ∈ signed negative text) : c ∈ 45 :: text := by
  cases negative with
  | false => exact List.mem_cons_of_mem _ inside
  | true => exact inside

theorem signed_length (negative : Bool) (text : Str) :
    (signed negative text).length ≤ text.length + 1 := by
  cases negative with
  | false => exact Nat.le_succ _
  | true => exact Nat.le_refl _

theorem Reading.text_plain (reading : Reading) (inside : c ∈ reading.text) :
    c ∉ stops ∧ 32 ≤ c ∧ c < 127 := by
  have marks := @JsonGen.plain_every [45,46] (by decide)
  cases reading with
  | finite negative millionths small =>
    rcases List.mem_cons.mp (signed_mem inside) with rfl | inside
    · exact marks 45 List.mem_cons_self
    rcases List.mem_append.mp inside with inside | inside
    · exact (JsonGen.digit_word (digits_digit inside)).2
    rcases List.mem_cons.mp inside with rfl | inside
    · exact marks 46 (List.mem_cons_of_mem _ List.mem_cons_self)
    · exact (JsonGen.digit_word (decimals_digit inside)).2
  | infinite negative =>
    exact @JsonGen.plain_every [45,105,110,102] (by decide) c (signed_mem inside)
  | nan negative =>
    exact @JsonGen.plain_every [45,110,97,110] (by decide) c (signed_mem inside)

theorem Reading.text_first (reading : Reading) (value : reading.bare = false) :
    ∃ c rest, reading.text = c :: rest ∧ label c = .literal := by
  have minus : label 45 = .literal := by decide
  cases reading with
  | finite negative millionths small =>
    cases negative with
    | true => exact ⟨45,_,rfl,minus⟩
    | false =>
      obtain ⟨c,rest,spelt⟩ := digits_first (millionths / 1000000)
      refine ⟨c,rest ++ 46 :: decimals (millionths % 1000000),?_,?_⟩
      · change digits _ ++ _ = _
        rw [spelt,List.cons_append]
      · exact (JsonGen.digit_word (digits_digit (spelt ▸ List.mem_cons_self))).1
  | infinite negative =>
    cases negative with
    | true => exact ⟨45,_,rfl,minus⟩
    | false => cases value
  | nan negative => cases negative <;> exact ⟨_,_,rfl,by decide⟩

/-- At most the minus, 39 digits, the point and six digits. -/
theorem Reading.text_length (reading : Reading) : reading.text.length ≤ 47 := by
  cases reading with
  | finite negative millionths small =>
    have whole : (digits (millionths / 1000000)).length ≤ 39 := by
      rw [digits,List.length_map]
      apply (Nat.length_toDigits_le_iff (by decide) (by decide)).mpr
      omega
    have most := signed_length negative
      (digits (millionths / 1000000) ++ 46 :: decimals (millionths % 1000000))
    rw [List.length_append,List.length_cons] at most
    have six : (decimals (millionths % 1000000)).length = 6 := rfl
    rw [Reading.text]
    omega
  | infinite negative | nan negative => cases negative <;> decide

/-- The reading as a float again: for a number the one nearest to what was printed of it. -/
def Reading.value : Reading → Float32
  | .finite negative millionths _ => opposed negative (scientific millionths (-6))
  | .infinite negative => opposed negative infinity
  | .nan negative => opposed negative notANumber

theorem digitsValue_decimals (whole : Nat) (small : n < 1000000) :
    (decimals n).foldl (fun acc d => 10 * acc + (d.toNat - 48)) whole = 1000000 * whole + n := by
  have digit : ∀ k, ((48 + k % 10).toUInt8).toNat - 48 = k % 10 := by
    intro k
    change (48 + k % 10) % 256 - 48 = k % 10
    omega
  simp only [decimals,List.map_cons,List.map_nil,List.foldl_cons,List.foldl_nil,digit]
  omega

theorem Reading.text_read (reading : Reading) : floatText reading.text = some reading.value := by
  cases reading with
  | finite negative millionths small =>
    have fixed : Fixed (digits (millionths / 1000000)) (decimals (millionths % 1000000)) := by
      refine ⟨?_,fun _ => digits_digit,fun _ => decimals_digit⟩
      intro none
      exact Nat.toDigits_ne_nil (List.map_eq_nil_iff.mp none)
    have number : digitsValue (digits (millionths / 1000000) ++ decimals (millionths % 1000000)) =
        millionths := by
      have whole : (digits (millionths / 1000000)).foldl (fun acc d => 10 * acc + (d.toNat - 48)) 0 =
          millionths / 1000000 := digitsValue_toDigits _
      rw [digitsValue,List.foldl_append,whole,
        digitsValue_decimals _ (Nat.mod_lt _ (by decide)),Nat.div_add_mod]
    have read := floatText_fixed fixed negative
    rw [number] at read
    exact read
  | infinite negative | nan negative => cases negative <;> rfl

example : (Reading.finite true 1500000 (by decide)).text = bytes "-1.500000" := by decide

def Reading.word (reading : Reading) (value : reading.bare = false) : Word where
  text := reading.text
  first := reading.text_first value
  plain _ inside := reading.text_plain inside

end Readings

section Message

def sendBufferSize : Nat := 1024

/-- The format string in front of `%f` and behind it. -/
def messageFront : Str :=
  bytes "[\x7b\"label\" : \"Temperature\",\"display_type\" : \"line_graph\",\"values\" :" ++
    bytes "[\x7b\"unit\" : \"Celsius\",\"value\" : "

def messageBack : Str := bytes ",\"label\" : \"\"\x7d]\x7d]"

/-- What prvQuickConnectSendingTask leaves in pcSendBuffer. -/
def message (reading : Reading) : Str :=
  Text.printed sendBufferSize (messageFront ++ reading.text ++ messageBack)

theorem message_whole (reading : Reading) :
    message reading = messageFront ++ reading.text ++ messageBack := by
  apply Text.printed_short
  have front : messageFront.length = 97 := by decide
  have back : messageBack.length = 17 := by decide
  have most := reading.text_length
  rw [List.length_append,List.length_append,front,back]
  change _ < 1024
  omega

theorem space_blank : Blank [32] := by
  intro c inside
  rw [List.mem_singleton.mp inside]
  rfl

theorem body_plain (s : String)
    (plain : (bytes s).all (fun c => c ≠ 0 && c ≠ quote && c ≠ backslash) = true) :
    StringBody (bytes s) := by
  rw [List.all_eq_true] at plain
  refine Claim.stringBody_plain ⟨fun inside => ?_,fun inside => ?_,fun inside => ?_⟩ <;>
    exact Bool.false_ne_true (plain _ inside)

theorem label_body : StringBody (bytes "label") := body_plain "label" (by decide)

theorem displayType_body : StringBody (bytes "display_type") :=
  body_plain "display_type" (by decide)

theorem values_body : StringBody (bytes "values") := body_plain "values" (by decide)

theorem unit_body : StringBody (bytes "unit") := body_plain "unit" (by decide)

theorem value_body : StringBody (bytes "value") := body_plain "value" (by decide)

theorem temperature_body : StringBody (bytes "Temperature") := body_plain "Temperature" (by decide)

theorem lineGraph_body : StringBody (bytes "line_graph") := body_plain "line_graph" (by decide)

theorem celsius_body : StringBody (bytes "Celsius") := body_plain "Celsius" (by decide)

/-- A name as the format has it, with a blank in front of the colon. -/
def messageKey (name : Str) (valid : StringBody name) (after : Blanks) : Key :=
  ⟨.none,name,valid,⟨[32],space_blank⟩,after⟩

def textMember (name text : Str) (valid : StringBody name) (body : StringBody text)
    (rest : Members) : Members :=
  .cons (messageKey name valid ⟨[32],space_blank⟩) (.string text body) .none rest

/-- One value with its unit. -/
def valueTree (word : Word) : Value :=
  .object .none (textMember _ _ unit_body celsius_body
    (.cons (messageKey _ value_body ⟨[32],space_blank⟩) (.literal word) .none
      (textMember _ _ label_body .nil .nil)))

/-- One line graph named after what is measured. -/
def messageTree (word : Word) : Value :=
  .array .none (.cons .none (.object .none (textMember _ _ label_body temperature_body
    (textMember _ _ displayType_body lineGraph_body
      (.cons (messageKey _ values_body .none)
        (.array .none (.cons .none (valueTree word) .none .nil)) .none .nil)))) .none .nil)

def messageDocument (word : Word) : Document := ⟨.none,messageTree word,.inr rfl,.none⟩

/-- A name and its text as the format has them. -/
def textPart (name text : String) : Str :=
  quote :: bytes name ++ [quote,32,58,32,quote] ++ bytes text ++ [quote]

theorem messageFront_parts : messageFront =
    [91,123] ++ textPart "label" "Temperature" ++ [Text.comma] ++
      textPart "display_type" "line_graph" ++ [Text.comma,quote] ++ bytes "values" ++
      [quote,32,58,91,123] ++ textPart "unit" "Celsius" ++ [Text.comma,quote] ++ bytes "value" ++
      [quote,32,58,32] := by decide

theorem messageBack_parts : messageBack =
    [Text.comma,quote] ++ bytes "label" ++ [quote,32,58,32,quote,quote,125,93,125,93] := by decide

theorem messageDocument_text (word : Word) :
    (messageDocument word).text = messageFront ++ word.text ++ messageBack := by
  rw [messageFront_parts,messageBack_parts]
  simp only [messageDocument,messageTree,valueTree,textMember,messageKey,Document.text,Value.text,
    Members.text,Elems.text,Key.text,Members.comma,Elems.comma,Blanks.none,List.append_assoc,
    List.nil_append,List.append_nil,List.cons_append,textPart]

/-- The way to the reading in the message. -/
def readingCalls : List Call :=
  [.arrGetObject 0,.objGetArray (bytes "values"),.arrGetObject 0,.objGetFloat (bytes "value")]

theorem reading_found (reading : Reading) (value : reading.bare = false) :
    (walk readingCalls ⟨.value (messageTree (reading.word value)),[]⟩).1 =
      [.done,.count 1,.done,.float reading.value] := by
  have walked : (walk readingCalls ⟨.value (messageTree (reading.word value)),[]⟩).1 =
      [.done,.count 1,.done,((floatText reading.text).map .float).getD .failed] := rfl
  rw [walked,reading.text_read]
  rfl

/-- Whoever reads the message finds the reading in its place in the tree. -/
theorem message_read (reading : Reading) (value : reading.bare = false) :
    ∃ ctx, parseStart true (message reading) = .ok ctx ∧
      (∀ calls, ∃ last, session calls ctx =
        some ((walk calls ⟨.value (messageTree (reading.word value)),[]⟩).1,last)) ∧
      ∃ last, session readingCalls ctx =
        some ([.done,.count 1,.done,.float reading.value],last) := by
  let document := messageDocument (reading.word value)
  have spelt : document.text = message reading := by
    rw [messageDocument_text,message_whole]
    rfl
  have reads : ∀ calls, ∃ last, session calls (documentCtx document) =
      some ((walk calls ⟨.value (messageTree (reading.word value)),[]⟩).1,last) := by
    intro calls
    obtain ⟨last,ran,_⟩ := session_follows calls (document_follows document)
    exact ⟨_,ran⟩
  refine ⟨_,spelt ▸ parseStart_document document,reads,?_⟩
  rw [← reading_found reading value]
  exact reads readingCalls

-- No word of JSON begins with an i, and the tokenizer is strict.
theorem infinite_rejected : (parseStart true (message (.infinite false))).isOk = false := by
  decide +kernel

theorem message_accepted (reading : Reading) :
    (∃ ctx, parseStart true (message reading) = .ok ctx) ↔ reading.bare = false := by
  constructor
  · rintro ⟨ctx,accepted⟩
    cases reading with
    | infinite negative =>
      cases negative with
      | true => rfl
      | false =>
        have rejected := infinite_rejected
        rw [accepted] at rejected
        cases rejected
    | finite | nan => rfl
  · intro value
    obtain ⟨ctx,accepted,_⟩ := message_read reading value
    exact ⟨ctx,accepted⟩

end Message

section Packets

/-- The fields of MQTTConnectInfo_t that eMqttConnect sets. -/
structure ConnectInfo where
  cleanSession : Bool
  clientIdentifier : Str
  clientIdentifierLength : UInt16
  keepAliveSeconds : UInt16

/-- The fields of MQTTPublishInfo_t. -/
structure PublishInfo where
  qos : Fin 3
  retain : Bool
  topicName : Str
  topicNameLength : UInt16
  payload : Str
  payloadLength : UInt32

/-- What is handed to MQTT_Connect. -/
def eMqttConnect (thingName : Str) : ConnectInfo where
  cleanSession := true
  clientIdentifier := thingName
  clientIdentifierLength := thingName.length.toUInt16
  keepAliveSeconds := 5

/-- What is handed to MQTT_Publish. -/
def eMqttPublishQuickConnect (pcThingName pcSendBuffer : Str) : PublishInfo where
  qos := 0
  retain := false
  topicName := pcThingName
  topicNameLength := pcThingName.length.toUInt16
  payload := pcSendBuffer
  payloadLength := pcSendBuffer.length.toUInt32

def ConnectInfo.client (info : ConnectInfo) : Str :=
  info.clientIdentifier.take info.clientIdentifierLength.toNat

def PublishInfo.topic (info : PublishInfo) : Str := info.topicName.take info.topicNameLength.toNat

def PublishInfo.body (info : PublishInfo) : Str := info.payload.take info.payloadLength.toNat

variable {name : Str}

theorem name_whole (short : name.length < 65536) : name.take name.length.toUInt16.toNat = name := by
  have same : name.length.toUInt16.toNat = name.length := Nat.mod_eq_of_lt short
  rw [same,List.take_length]

theorem body_whole (reading : Reading) :
    (eMqttPublishQuickConnect name (message reading)).body = message reading := by
  have short : (message reading).length < 1024 := Text.printed_length (by decide) _
  have same : (message reading).length.toUInt32.toNat = (message reading).length :=
    Nat.mod_eq_of_lt (Nat.lt_trans short (by decide))
  rw [PublishInfo.body,eMqttPublishQuickConnect,same,List.take_length]

end Packets

/-- From the first connection on every message goes out under the name that the device connected
with, in this boot and later ones. It is whole, and json_parser.c reads it as the tree that it
spells, the float nearest to the printed reading in its place, unless the sensor reads infinity. -/
theorem message_published (policy : Policy)
    (reliable : ∀ c t o, policy.permits c t o → reads t o = true) (mac : Vector UInt8 6)
    (nvs : DurableMap RuntimeKey Str) (c c' : Config)
    (ordered : nvs .thingname ≠ none → nvs .nodeid ≠ none)
    (run : Reaches policy (boot mac nvs) c) (later : Reaches policy c c')
    (connecting : .mqtt .connect ∈ c.tasks) (publishing : .sending .publish ∈ c'.tasks)
    (reading : Reading) :
    ∃ name, c.shared.pcThingName = some name ∧ c'.shared.pcThingName = some name ∧
      (name.length < 65536 → (eMqttConnect name).client = name ∧
        (eMqttPublishQuickConnect name (message reading)).topic = name) ∧
      (eMqttPublishQuickConnect name (message reading)).body =
        messageFront ++ reading.text ++ messageBack ∧
      ((∃ ctx, parseStart true (eMqttPublishQuickConnect name (message reading)).body = .ok ctx) ↔
        reading.bare = false) ∧
      ∀ value : reading.bare = false,
        ∃ ctx, parseStart true (eMqttPublishQuickConnect name (message reading)).body = .ok ctx ∧
          (∀ calls, ∃ last, session calls ctx =
            some ((walk calls ⟨.value (messageTree (reading.word value)),[]⟩).1,last)) ∧
          ∃ last, session readingCalls ctx =
            some ([.done,.count 1,.done,.float reading.value],last) := by
  have started : Registry (boot mac nvs) := ⟨.assigning trivial,ordered⟩
  have safe : Registry c := (started.later reliable run).1
  obtain ⟨safe',kept⟩ := safe.later reliable later
  obtain ⟨name,assigned,stored⟩ := safe.registering.registered connecting nofun
  obtain ⟨name',assigned',stored'⟩ := safe'.registering.registered publishing nofun
  have present : c.shared.nvs .thingname ≠ none := by
    rw [stored]
    exact Option.some_ne_none name
  have same : name' = name := by
    rw [← Option.some_inj,← stored',kept present,stored]
  subst same
  refine ⟨name',assigned,assigned',fun short => ⟨name_whole short,name_whole short⟩,?_⟩
  rw [body_whole]
  exact ⟨message_whole reading,message_accepted reading,message_read reading⟩

def readable : Policy := ⟨fun _ t o => reads t o = true,True⟩

def mqttConnects : List (Nat × Outcome) := allStarted ++ credentialsRead ++ tlsConnects ++ [(2,.go)]

def publishes : List (Nat × Outcome) := [(2,.status .success),(2,.go),(0,.go),(0,.go)]

def chilly : Reading := .finite true 1500000 (by decide)

set_option maxRecDepth 8000 in
theorem message_published_connected :
    ∃ c c', Reaches readable (boot someMac provisioned) c ∧ Reaches readable c c' ∧
      .sending .publish ∈ c'.tasks ∧ c'.shared.pcThingName = some (bytes "thing") ∧
      ∃ ctx last, parseStart true
        (eMqttPublishQuickConnect (bytes "thing") (message chilly)).body = .ok ctx ∧
        session readingCalls ctx =
          some ([.done,.count 1,.done,.float (.ofBits 0xbfc00000)],last) := by
  have keeps : ∀ c t o, reads t o = true → readable.permits c t o := fun _ _ _ => id
  obtain ⟨c,run,test⟩ := TaskPool.play_any machine (fun _ t o => reads t o) readable keeps
    (boot someMac provisioned) mqttConnects (fun c => .mqtt .connect ∈ c.tasks ∧
      c.shared.pcThingName = some (bytes "thing") ∧
      (TaskPool.play machine (fun _ t o => reads t o) c publishes).any
        (fun c' => .sending .publish ∈ c'.tasks) = true) (by decide)
  obtain ⟨connecting,called,played⟩ := of_decide_eq_true test
  obtain ⟨c',later,publishing⟩ := TaskPool.play_any machine (fun _ t o => reads t o) readable keeps
    c publishes (fun c' => .sending .publish ∈ c'.tasks) played
  have sending := of_decide_eq_true publishing
  obtain ⟨name,own,own',_,_,_,read⟩ := message_published readable (fun _ _ _ => id) someMac
    provisioned c c' (fun _ => nofun) run later connecting sending chilly
  have same : bytes "thing" = name := Option.some_inj.mp (called.symm.trans own)
  subst same
  obtain ⟨ctx,accepted,_,last,found⟩ := read rfl
  have nearest : chilly.value = .ofBits 0xbfc00000 := by decide +kernel
  rw [nearest] at found
  exact ⟨c,c',run,later,sending,own',ctx,last,accepted,found⟩

end QuickConnect.Firmware
