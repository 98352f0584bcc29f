import QuickConnect.Firmware.Steps

/-! What a step shows to the outside: the lines that it prints, and that the program crashes. -/
namespace QuickConnect.Firmware

def UtilityPoint.prints (d : Device) : UtilityPoint → List Line
  | .printWifi bits => [wifiNotification bits]
  | .printGen => [.privKeyAndCsrGen]
  | .printPrivKey bits => [privKeyNotification bits]
  | .printGet => [.selfClaimPerf]
  | .printCert bits => [certNotification bits]
  | .sendCert => [.cert d.pcDevCert]
  | .sendThingName => [.thingName d.pcThingName]
  | _ => []

/-- Only the utility task prints. -/
def Task.prints (d : Device) : Task → List Line
  | .utility point => point.prints d
  | _ => []

/-- The four places at which the program crashes. -/
inductive Crashes (d : Device) : Task → Outcome → Prop
  | wifi (bits : Finset NetworkBit) : Crashes d (.network (.wifi bits)) .fail
  | key : Crashes d (.privKey .generate) .noMemory
  | claim (address : Nat) (current : d.pxSelfClaimData = some address)
      (released : ¬d.claimDataLive address) : Crashes d (.cert .enter) .go
  | credentials (absent : d.pcDevCert = none ∨ d.pcDevKey = none) : Crashes d (.tls .configure) .go

structure Outward (t : Task) (o : Outcome) (d d' : Device) : Prop where
  serial : d'.serial = d.serial ++ t.prints d
  halted : d'.halted = d.halted ∨ Crashes d t o

section
variable {d d' : Device} {t : Task} {o : Outcome} {next : List Task}

theorem Outward.quiet (prints : t.prints d = []) (serial : d'.serial = d.serial)
    (halted : d'.halted = d.halted) : Outward t o d d' where
  serial := by rw [prints,serial,List.append_nil]
  halted := .inl halted

theorem Outward.crashed (prints : t.prints d = []) (serial : d'.serial = d.serial)
    (crashes : Crashes d t o) : Outward t o d d' where
  serial := by rw [prints,serial,List.append_nil]
  halted := .inr crashes

theorem Outward.main {point : MainPoint} (ran : appMain d o point = some (d',next)) :
    Outward (.main point) o d d' := by
  cases point <;> cases o <;> simp only [appMain,proceed,call,drawn,reduceCtorEq] at ran
  all_goals (try split at ran) <;> cases ran <;> exact .quiet rfl rfl rfl

theorem Outward.handler {point : HandlerPoint}
    (ran : prvEventHandlers d o point = some (d',next)) : Outward (.handler point) o d d' := by
  cases point <;> cases o <;> simp only [prvEventHandlers,proceed,reduceCtorEq] at ran
  all_goals (try split at ran) <;> cases ran <;> exact .quiet rfl rfl rfl

theorem Outward.network {point : NetworkPoint}
    (ran : prvNetworkHandlingTask d o point = some (d',next)) : Outward (.network point) o d d' := by
  cases point with
  | waiting =>
    obtain ⟨_,_,rfl,_⟩ := network_waiting_some ran
    exact .quiet rfl rfl rfl
  | start =>
    obtain ⟨_,ran⟩ := proceed_some.mp ran
    cases ran
    exact .quiet rfl rfl rfl
  | wifi bits =>
    simp only [prvNetworkHandlingTask] at ran
    split at ran
    · rcases call_some.mp ran with ⟨_,ran⟩ | ⟨rfl,ran⟩ <;> cases ran
      · exact .quiet rfl rfl rfl
      · exact .crashed rfl rfl (.wifi bits)
    · obtain ⟨_,ran⟩ := proceed_some.mp ran
      cases ran
      exact .quiet rfl rfl rfl
  | create a bits =>
    simp only [prvNetworkHandlingTask] at ran
    cases o <;> split at ran <;> simp only [proceed,call,reduceCtorEq] at ran <;> cases ran <;>
      exact .quiet rfl rfl rfl

theorem Outward.privKey {point : PrivKeyPoint}
    (ran : prvGetPrivKeyTask d o point = some (d',next)) : Outward (.privKey point) o d d' := by
  cases point <;> cases o <;> simp only [prvGetPrivKeyTask,proceed,call,reduceCtorEq] at ran
  case generate.noMemory =>
    cases ran
    exact .crashed rfl rfl .key
  all_goals (try split at ran) <;> cases ran <;> exact .quiet rfl rfl rfl

theorem Outward.cert {point : CertPoint} (ran : prvGetCertTask d o point = some (d',next)) :
    Outward (.cert point) o d d' := by
  cases point with
  | waiting =>
    obtain ⟨_,_,rfl,_⟩ := awaitBits_some.mp ran
    exact .quiet rfl rfl rfl
  | enter =>
    simp only [prvGetCertTask] at ran
    split at ran
    · obtain ⟨_,ran⟩ := proceed_some.mp ran
      cases ran
      exact .quiet rfl rfl rfl
    · rename_i a current
      split at ran <;> rename_i live
      · obtain ⟨_,ran⟩ := proceed_some.mp ran
        cases ran
        exact .quiet rfl rfl rfl
      · cases o <;> simp only [reduceCtorEq] at ran <;> cases ran
        · exact .crashed rfl rfl (.claim a current live)
        · exact .quiet rfl rfl rfl
  | _ =>
    cases o <;> simp only [prvGetCertTask,proceed,call,reduceCtorEq] at ran
    all_goals (try split at ran) <;> cases ran <;> exact .quiet rfl rfl rfl

theorem Outward.tls {point : TlsPoint} (ran : prvTlsConnectionTask d o point = some (d',next)) :
    Outward (.tls point) o d d' := by
  cases point with
  | waiting =>
    obtain ⟨_,_,rfl,_⟩ := awaitBits_some.mp ran
    exact .quiet rfl rfl rfl
  | configure =>
    replace ran := proceed_some.mp ran
    obtain ⟨rfl,ran⟩ := ran
    split at ran <;> rename_i absent <;> cases ran
    · exact .crashed rfl rfl (.credentials absent)
    · exact .quiet rfl rfl rfl
  | _ =>
    cases o <;> simp only [prvTlsConnectionTask,proceed,call,reduceCtorEq] at ran
    all_goals (try split at ran) <;> cases ran <;> exact .quiet rfl rfl rfl

theorem Outward.mqtt {point : MqttPoint} (ran : prvMqttConnectionTask d o point = some (d',next)) :
    Outward (.mqtt point) o d d' := by
  cases point with
  | waiting =>
    obtain ⟨_,_,rfl,_⟩ := awaitBits_some.mp ran
    exact .quiet rfl rfl rfl
  | connect =>
    cases o <;> simp only [prvMqttConnectionTask,reduceCtorEq] at ran
    cases ran
    exact .quiet rfl rfl rfl
  | report status =>
    obtain ⟨_,ran⟩ := proceed_some.mp ran
    cases status <;> cases ran <;> exact .quiet rfl rfl rfl
  | dropped =>
    obtain ⟨_,ran⟩ := proceed_some.mp ran
    cases ran
    exact .quiet rfl rfl rfl

theorem Outward.sending {point : SendingPoint}
    (ran : prvQuickConnectSendingTask d o point = some (d',next)) :
    Outward (.sending point) o d d' := by
  cases point with
  | waiting =>
    obtain ⟨_,_,rfl,_⟩ := awaitBits_some.mp ran
    exact .quiet rfl rfl rfl
  | _ =>
    cases o <;> simp only [prvQuickConnectSendingTask,proceed,reduceCtorEq] at ran
    all_goals (try split at ran) <;> cases ran <;> exact .quiet rfl rfl rfl

theorem Outward.utility {point : UtilityPoint}
    (ran : prvUtilityOutputTask d o point = some (d',next)) : Outward (.utility point) o d d' := by
  cases point <;> simp only [prvUtilityOutputTask,consumeBits_some,proceed_some] at ran
  case waitWifi | waitGen | waitPrivKey | waitGet | waitCert =>
    obtain ⟨_,_,rfl,_⟩ := ran
    exact .quiet rfl rfl rfl
  all_goals
    obtain ⟨_,ran⟩ := ran
    cases ran
    exact ⟨rfl,.inl rfl⟩

theorem taskStep_outward (ran : taskStep d o t = some (d',next)) : Outward t o d d' := by
  cases t with
  | main point => exact .main ran
  | handler point => exact .handler ran
  | network point => exact .network ran
  | privKey point => exact .privKey ran
  | cert point => exact .cert ran
  | tls point => exact .tls ran
  | mqtt point => exact .mqtt ran
  | sending point => exact .sending ran
  | utility point => exact .utility ran

end

end QuickConnect.Firmware
