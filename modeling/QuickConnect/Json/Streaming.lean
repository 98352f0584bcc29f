import QuickConnect.Lib.Spool
import QuickConnect.Json.GeneratorCalls

/-! What any sequence of generator calls leaves: through a callback the windows of its text,
in a buffer without one the front of it, and without a buffer the number of bytes it needs. -/
namespace QuickConnect.JsonGen
open Text Spool

variable {size room : Nat}

/-- A property of the text so far that adding a piece keeps while the length is an int, with the
code that it returns for the text it leads to. -/
structure Mode (Inv : JsonStr size → Str → Prop) (code : Str → Str → Int) : Prop where
  flags : ∀ jstr text comma, Inv jstr text → Inv (flag comma jstr) text
  empty : ∀ text, code text [] = 0
  adds : ∀ jstr text s, Inv jstr text → (text ++ s).length ≤ intMax →
    ∃ jstr', addToStr jstr (some s) = some (code (text ++ s) s,jstr') ∧ Inv jstr' (text ++ s)

section Mode
variable {Inv : JsonStr size → Str → Prop} {code : Str → Str → Int} {jstr : JsonStr size}
  {text : Str}

theorem Mode.piece (mode : Mode Inv code) (inv : Inv jstr text) (piece : Option Str)
    (small : (text ++ piece.getD []).length ≤ intMax) :
    ∃ jstr', addToStr jstr piece = some (code (text ++ piece.getD []) (piece.getD []),jstr') ∧
      Inv jstr' (text ++ piece.getD []) := by
  cases piece with
  | none =>
    refine ⟨jstr,?_,?_⟩
    · rw [Option.getD_none,mode.empty]
      rfl
    · rw [Option.getD_none,List.append_nil]
      exact inv
  | some s => exact mode.adds jstr text s inv small

theorem Mode.writes (mode : Mode Inv code) (last : Option Str) (pieces : List (Option Str)) :
    ∀ {jstr : JsonStr size} {text : Str}, Inv jstr text →
      (text ++ written (pieces ++ [last])).length ≤ intMax →
      ∃ jstr', writes (pieces ++ [last]) jstr =
          some (code (text ++ written (pieces ++ [last])) (last.getD []),jstr') ∧
        Inv jstr' (text ++ written (pieces ++ [last])) := by
  induction pieces with
  | nil =>
    intro jstr text inv small
    have same : written ([] ++ [last]) = last.getD [] := by simp [written]
    rw [same] at small ⊢
    exact mode.piece inv last small
  | cons piece pieces ih =>
    intro jstr text inv small
    have same : text ++ written (piece :: pieces ++ [last]) =
        text ++ piece.getD [] ++ written (pieces ++ [last]) := by simp [written]
    rw [same] at small ⊢
    have short : (text ++ piece.getD []).length ≤ intMax := by
      rw [List.length_append] at small
      omega
    obtain ⟨next,added,inv⟩ := mode.piece inv piece short
    obtain ⟨jstr',wrote,inv⟩ := ih inv small
    refine ⟨jstr',?_,inv⟩
    rw [List.cons_append,writes_cons (by simp)]
    simp only [add,added,Option.map_some,Option.bind_eq_bind,Option.bind_some,wrote]

theorem Op.pieces_final (op : Op) (comma : Bool) :
    ∃ pieces last, op.pieces comma = pieces ++ [last] ∧ op.final = last.getD [] := by
  have valued : ∃ value last, op.value = value ++ [last] := by
    rcases List.eq_nil_or_concat op.value with none | ⟨value,last,same⟩
    · cases op <;> cases none
    · exact ⟨value,last,by rw [same,List.concat_eq_append]⟩
  obtain ⟨value,last,same⟩ := valued
  refine ⟨op.front comma ++ value,last,?_,?_⟩
  · rw [pieces,same,List.append_assoc]
  · rw [final,same,List.getLast?_append]
    rfl

theorem Mode.run (mode : Mode Inv code) (inv : Inv jstr text) (op : Op)
    (small : (text ++ op.text jstr.commaReq).length ≤ intMax) :
    ∃ jstr', op.run jstr = some (code (text ++ op.text jstr.commaReq) op.final,jstr') ∧
      Inv jstr' (text ++ op.text jstr.commaReq) ∧ jstr'.commaReq = op.after jstr.commaReq := by
  obtain ⟨pieces,last,same,final⟩ := op.pieces_final jstr.commaReq
  have start := mode.flags jstr text (op.after jstr.commaReq) inv
  rw [Op.text,same] at small
  obtain ⟨jstr',wrote,inv⟩ := mode.writes last pieces start small
  rw [Op.text,same,final,run_writes,same]
  refine ⟨jstr',wrote,inv,?_⟩
  rw [writes_flag] at wrote
  obtain ⟨r,_,rest⟩ := Option.map_eq_some_iff.mp wrote
  rw [← congrArg (fun r => r.2.commaReq) rest]
  rfl

/-- What the calls return one after the other. -/
def codes (code : Str → Str → Int) : Str → Bool → List Op → List Int
  | _, _, [] => []
  | text, comma, op :: ops =>
    code (text ++ op.text comma) op.final ::
      codes code (text ++ op.text comma) (op.after comma) ops

theorem Mode.calls (mode : Mode Inv code) (ops : List Op) :
    ∀ {jstr : JsonStr size} {text : Str}, Inv jstr text →
      (text ++ opsText jstr.commaReq ops).length ≤ intMax →
      ∃ jstr', calls (ops.map Op.run) jstr = some (codes code text jstr.commaReq ops,jstr') ∧
        Inv jstr' (text ++ opsText jstr.commaReq ops) := by
  induction ops with
  | nil =>
    intro jstr text inv _
    refine ⟨jstr,rfl,?_⟩
    rw [opsText,List.append_nil]
    exact inv
  | cons op ops ih =>
    intro jstr text inv small
    rw [opsText,← List.append_assoc] at small
    have short : (text ++ op.text jstr.commaReq).length ≤ intMax := by
      rw [List.length_append] at small
      omega
    obtain ⟨next,ran,inv,flagged⟩ := mode.run inv op short
    rw [← flagged] at small
    obtain ⟨jstr',rest,inv⟩ := ih inv small
    rw [flagged] at rest inv
    refine ⟨jstr',?_,?_⟩
    · rw [List.map_cons,JsonGen.calls,ran]
      simp only [Option.bind_eq_bind,Option.bind_some,rest,codes]
    · rw [opsText,← List.append_assoc]
      exact inv

theorem codes_zero (text : Str) (comma : Bool) (ops : List Op) :
    codes (fun _ _ => 0) text comma ops = List.replicate ops.length 0 := by
  induction ops generalizing text comma with
  | nil => rfl
  | cons op ops ih =>
    rw [codes,ih]
    rfl

theorem codes_found (code : Str → Str → Int) (op : Op) (after before : List Op) :
    ∀ (text : Str) (comma : Bool), (codes code text comma (before ++ op :: after))[before.length]? =
      some (code (text ++ opsText comma (before ++ [op])) op.final) := by
  induction before with
  | nil =>
    intro text comma
    simp only [List.nil_append,codes,List.length_nil,List.getElem?_cons_zero,opsText,
      List.append_nil]
  | cons first before ih =>
    intro text comma
    rw [List.cons_append,codes,List.length_cons,List.getElem?_cons_succ,ih,List.cons_append,
      opsText,List.append_assoc]

end Mode
section Write

/-- A text written behind the one that stands at the front. -/
theorem write_behind {buf : Region size} {held s : Str} (front : buf.bytes.take held.length = held)
    (fits : held.length + s.length ≤ size) : ∃ written, buf.write held.length s = some written ∧
      ∃ rest, written.bytes = held ++ s ++ rest := by
  obtain ⟨written,wrote,whole⟩ := buf.write_some fits
  rw [front] at whole
  exact ⟨written,wrote,_,whole⟩

theorem addToStr_stored {jstr : JsonStr size} {buf : Region size} (stored : jstr.buf = some buf)
    (s : Str) (small : jstr.totalLen + s.length ≤ intMax) : addToStr jstr (some s) =
      addLoop (s.length + 2) buf { jstr with totalLen := jstr.totalLen + s.length } s := by
  rw [addToStr,if_neg (Nat.not_lt_of_le small)]
  simp only [stored]

theorem front_take {bytes held rest : Str} (whole : bytes = held ++ rest) :
    bytes.take held.length = held := by rw [whole,List.take_left]

/-- With room for the rest of a text one round adds all of it. -/
theorem round_fits {buf : Region (room + 1)} (jstr : JsonStr (room + 1)) {held : Str} (cur : Str)
    (front : buf.bytes.take held.length = held) (place : jstr.freePtr = held.length)
    (fits : held.length + cur.length ≤ room) (fuel : Nat) :
    ∃ written rest, written.bytes = held ++ cur ++ rest ∧ addLoop (fuel + 1) buf jstr cur =
      some (0,{ jstr with buf := some written, freePtr := held.length + cur.length }) := by
  obtain ⟨written,wrote,rest,whole⟩ := write_behind (s := cur) front (by omega)
  have copies : copyLen (room + 1) jstr.freePtr cur.length = cur.length := by
    rw [copyLen,place]
    split <;> omega
  refine ⟨written,rest,whole,?_⟩
  rw [addLoop_round,copies,if_neg (by omega),Int.toNat_natCast,round,place,List.take_length,wrote]
  simp

/-- Where the text does not fit one round fills the buffer and ends it. -/
theorem round_fills {buf : Region (room + 1)} (jstr : JsonStr (room + 1)) {held : Str} (cur : Str)
    (front : buf.bytes.take held.length = held) (place : jstr.freePtr = held.length)
    (within : held.length ≤ room) (long : room < held.length + cur.length) (fuel : Nat) :
    ∃ filled : Region (room + 1),
      filled.bytes = held ++ cur.take (room - held.length) ++ [0] ∧
      addLoop (fuel + 1) buf jstr cur =
        if jstr.flushCb = false then some (-1,{ jstr with buf := some filled, freePtr := room })
        else addLoop fuel filled { jstr with
          buf := some filled
          freePtr := 0
          flushed := jstr.flushed ++ [filled.bytes] } (cur.drop (room - held.length)) := by
  have copied : (cur.take (room - held.length)).length = room - held.length := by
    rw [List.length_take]
    omega
  have full : (held ++ cur.take (room - held.length)).length = room := by
    rw [List.length_append,copied]
    omega
  obtain ⟨written,wrote,rest,whole⟩ := write_behind (s := cur.take (room - held.length)) front
    (by omega)
  obtain ⟨filled,ended,behind,all⟩ := write_behind (s := [0]) (front_take whole)
    (Nat.le_of_eq (by rw [full,List.length_singleton]))
  have ends : behind = [] := by
    have sized := filled.sized
    rw [all,List.length_append,List.length_append,full,List.length_singleton] at sized
    exact List.eq_nil_of_length_eq_zero (by omega)
  rw [ends,List.append_nil] at all
  have copies : copyLen (room + 1) jstr.freePtr cur.length = ((room - held.length : Nat) : Int) := by
    rw [copyLen,place]
    split <;> omega
  have left : cur.drop (room - held.length) ≠ [] := by
    intro none
    have short := List.drop_eq_nil_iff.mp none
    omega
  have spot : held.length + (room - held.length) = room := by omega
  refine ⟨filled,all,?_⟩
  rw [addLoop_round,copies,if_neg (by omega),Int.toNat_natCast,round,place,wrote]
  simp only [Option.bind_eq_bind,Option.bind_some,left,if_false,spot]
  rw [full] at ended
  rw [ended]
  rfl

end Write
section Measure

/-- Without a buffer the text is only counted. -/
structure Counts (jstr : JsonStr size) (text : Str) : Prop where
  buf : jstr.buf = none
  totalLen : jstr.totalLen = text.length
  flushed : jstr.flushed = []

theorem counts_mode : Mode (@Counts size) fun _ _ => 0 where
  flags jstr text comma counts := ⟨counts.buf,counts.totalLen,counts.flushed⟩
  empty _ := rfl
  adds jstr text s counts small := by
    rw [List.length_append,← counts.totalLen] at small
    refine ⟨{ jstr with totalLen := jstr.totalLen + s.length },?_,?_⟩
    · rw [addToStr,if_neg (Nat.not_lt_of_le small)]
      simp only [counts.buf]
    · refine ⟨counts.buf,?_,counts.flushed⟩
      rw [List.length_append,← counts.totalLen]

end Measure
section Clip

/-- Without a callback the buffer keeps the front of the text. -/
structure Clips (jstr : JsonStr (room + 1)) (text : Str) : Prop where
  buf : ∃ buf, jstr.buf = some buf ∧ buf.bytes.take (text.take room).length = text.take room
  flushCb : jstr.flushCb = false
  freePtr : jstr.freePtr = (text.take room).length
  totalLen : jstr.totalLen = text.length
  flushed : jstr.flushed = []

/-- A piece that is not empty is refused when the text is longer than the buffer. -/
def clipCode (room : Nat) (text s : Str) : Int := if s ≠ [] ∧ room < text.length then -1 else 0

theorem take_take_append (text s : Str) (room : Nat) :
    (text ++ s).take room = text.take room ++ s.take (room - (text.take room).length) := by
  rw [List.take_append,List.length_take]
  rcases Nat.le_total text.length room with short | long
  · rw [Nat.min_eq_right short]
  · rw [Nat.min_eq_left long,Nat.sub_self,Nat.sub_eq_zero_of_le long]

theorem clips_mode : Mode (@Clips room) (clipCode room) where
  flags jstr text comma clips :=
    ⟨clips.buf,clips.flushCb,clips.freePtr,clips.totalLen,clips.flushed⟩
  empty _ := if_neg fun refused => refused.1 rfl
  adds jstr text s clips small := by
    obtain ⟨⟨buf,stored,front⟩,plain,place,total,flushed⟩ := clips
    have front' := take_take_append text s room
    have length : (text ++ s).length = text.length + s.length := List.length_append
    have taken : (text.take room).length = min room text.length := List.length_take
    rw [addToStr_stored stored s (by rw [total,← length]; exact small)]
    by_cases fits : (text.take room).length + s.length ≤ room
    · obtain ⟨written,rest,whole,ran⟩ := round_fits
        { jstr with totalLen := jstr.totalLen + s.length } s front place fits (s.length + 1)
      have code : clipCode room (text ++ s) s = 0 := by
        apply if_neg
        rintro ⟨some',long⟩
        have positive := List.length_pos_iff.mpr some'
        omega
      rw [List.take_of_length_le (show s.length ≤ room - (text.take room).length by omega)] at front'
      rw [code]
      refine ⟨_,ran,⟨written,rfl,?_⟩,plain,?_,?_,flushed⟩
      · rw [front']
        exact front_take whole
      · rw [front',List.length_append]
      · rw [length,← total]
    · obtain ⟨filled,whole,ran⟩ := round_fills
        { jstr with totalLen := jstr.totalLen + s.length } s front place
        (by omega) (by omega) (s.length + 1)
      have code : clipCode room (text ++ s) s = -1 := by
        apply if_pos
        refine ⟨?_,by omega⟩
        rintro rfl
        rw [List.length_nil] at fits
        omega
      have full : ((text ++ s).take room).length = room := by
        rw [List.length_take]
        omega
      rw [if_pos plain] at ran
      rw [code]
      refine ⟨_,ran,⟨filled,rfl,?_⟩,plain,?_,?_,flushed⟩
      · rw [front']
        exact front_take whole
      · rw [full]
      · rw [length,← total]

end Clip
section Stream

/-- With a callback it was given the windows of the text that are full. -/
structure Streams (given : List Str) (held : Str) (jstr : JsonStr (room + 1)) (text : Str) :
    Prop where
  buf : ∃ buf, jstr.buf = some buf ∧ buf.bytes.take held.length = held
  flushCb : jstr.flushCb = true
  freePtr : jstr.freePtr = held.length
  totalLen : jstr.totalLen = text.length
  flushed : jstr.flushed = given.map (· ++ [0])
  spooled : Spooled room text given held

/-- A buffer that was just given away is filled again by what is left of the text. -/
theorem addLoop_streams (fuel : Nat) :
    ∀ {buf : Region (room + 1)} (jstr : JsonStr (room + 1)) (text cur held : Str)
      {given : List Str}, buf.bytes.take held.length = held → jstr.flushCb = true →
      jstr.freePtr = held.length → jstr.totalLen = (text ++ cur).length →
      jstr.flushed = given.map (· ++ [0]) → Windows room text given held →
      (given ≠ [] → held ++ cur ≠ []) → held.length + cur.length < fuel * room →
      ∃ jstr' given' held', addLoop fuel buf jstr cur = some (0,jstr') ∧
        Streams given' held' jstr' (text ++ cur) := by
  induction fuel with
  | zero =>
    intro buf jstr text cur held given _ _ _ _ _ _ _ short
    rw [Nat.zero_mul] at short
    exact absurd short (Nat.not_lt_zero _)
  | succ fuel ih =>
    intro buf jstr text cur held given front empties place total flushed windows awake enough
    by_cases fits : held.length + cur.length ≤ room
    · obtain ⟨written,rest,whole,ran⟩ := round_fits jstr cur front place fits fuel
      refine ⟨_,given,held ++ cur,ran,⟨written,rfl,front_take whole⟩,empties,?_,total,flushed,?_⟩
      · rw [List.length_append]
      · exact ⟨windows.fill fits,awake⟩
    · have within := windows.fits
      obtain ⟨filled,whole,ran⟩ := round_fills jstr cur front place within (by omega) fuel
      have filling : held.length + (cur.take (room - held.length)).length = room := by
        rw [List.length_take]
        omega
      have next := (windows.fill (s := cur.take (room - held.length)) (by omega)).give
        (by rw [List.length_append]; exact filling)
      have left : cur.drop (room - held.length) ≠ [] := by
        intro none
        have short := List.drop_eq_nil_iff.mp none
        omega
      rw [if_neg (by rw [empties]; exact Bool.noConfusion)] at ran
      have split : text ++ cur.take (room - held.length) ++ cur.drop (room - held.length) =
          text ++ cur := by rw [List.append_assoc,List.take_append_drop]
      have shorter : ([] : Str).length + (cur.drop (room - held.length)).length < fuel * room := by
        rw [Nat.add_mul,Nat.one_mul] at enough
        rw [List.length_nil,List.length_drop]
        omega
      have given' : jstr.flushed ++ [filled.bytes] =
          (given ++ [held ++ cur.take (room - held.length)]).map (· ++ [0]) := by
        rw [flushed,whole,List.map_append]
        rfl
      obtain ⟨jstr',given',held',rest,streams⟩ := ih
        { jstr with buf := some filled, freePtr := 0, flushed := jstr.flushed ++ [filled.bytes] }
        (text ++ cur.take (room - held.length)) _ [] rfl empties rfl (total.trans (congrArg List.length split.symm)) given' next (fun _ => left)
        shorter
      rw [split] at streams
      exact ⟨jstr',given',held',ran.trans rest,streams⟩

theorem streams_mode (some' : 0 < room) :
    Mode (fun jstr text => ∃ given held, @Streams room given held jstr text) fun _ _ => 0 where
  flags jstr text comma streams := by
    obtain ⟨given,held,streams⟩ := streams
    exact ⟨given,held,streams.buf,streams.flushCb,streams.freePtr,streams.totalLen,streams.flushed,
      streams.spooled⟩
  empty _ := rfl
  adds jstr text s streams small := by
    obtain ⟨given,held,⟨buf,stored,front⟩,empties,place,total,flushed,spooled⟩ := streams
    obtain ⟨jstr',given',held',ran,streams⟩ := addLoop_streams (s.length + 2)
      { jstr with totalLen := jstr.totalLen + s.length } text s held front empties place
      (by rw [List.length_append,← total]) flushed spooled.toWindows
      (fun given empty => spooled.awake given (List.append_eq_nil_iff.mp empty).1) (by
        have within := spooled.fits
        have more : s.length ≤ s.length * room := Nat.le_mul_of_pos_right _ some'
        rw [Nat.add_mul]
        omega)
    refine ⟨jstr',?_,given',held',streams⟩
    rw [List.length_append,← total] at small
    rw [addToStr_stored stored s small]
    exact ran

end Stream
section Runs

theorem strEnd_front {jstr : JsonStr size} {buf : Region size} {held : Str}
    (stored : jstr.buf = some buf) (front : buf.bytes.take held.length = held)
    (place : jstr.freePtr = held.length) (room : held.length < size)
    (small : jstr.totalLen < intMax) :
    ∃ last rest, strEnd jstr = some (jstr.totalLen + 1,some last,
        if jstr.flushCb then jstr.flushed ++ [last.bytes] else jstr.flushed) ∧
      last.bytes = held ++ 0 :: rest := by
  obtain ⟨last,wrote,rest,whole⟩ := write_behind (s := [0]) front
    (by rw [List.length_singleton]; exact room)
  refine ⟨last,rest,?_,?_⟩
  · rw [strEnd,if_neg (Nat.not_lt_of_le small),stored,place]
    simp only [wrote,Option.bind_eq_bind,Option.bind_some]
  · rw [whole,List.append_assoc]
    rfl

theorem streamed_run {ops : List Op} (short : (opsText false ops).length < intMax)
    (buf : Region (room + 2)) :
    ∃ jstr given held last rest,
      calls (ops.map Op.run) (strStart (some buf) true) =
        some (List.replicate ops.length 0,jstr) ∧
      strEnd jstr = some ((opsText false ops).length + 1,some last,
        given.map (· ++ [0]) ++ [held ++ 0 :: rest]) ∧
      Spooled (room + 1) (opsText false ops) given held := by
  have start : Streams [] [] (strStart (some buf) true) [] :=
    ⟨⟨buf,rfl,rfl⟩,rfl,rfl,rfl,rfl,spooled_nil _⟩
  obtain ⟨jstr,ran,given,held,⟨bytes,stored,front⟩,empties,place,total,flushed,spooled⟩ :=
    (streams_mode (Nat.succ_pos room)).calls ops ⟨[],[],start⟩ (Nat.le_of_lt short)
  rw [codes_zero] at ran
  obtain ⟨last,rest,ended,whole⟩ := strEnd_front stored front place
    (Nat.lt_succ_of_le spooled.fits) (total ▸ short)
  rw [if_pos empties,flushed,whole,total] at ended
  exact ⟨jstr,given,held,last,rest,ran,ended,spooled⟩

/-- Through a callback the whole text, if an int can count it, comes out of a buffer of any size
but one: every call returns 0, each buffer that was given away before the last is full of text,
and each ends with a terminator. Where the text is cut depends on the text alone. -/
theorem ops_streamed (ops : List Op) (short : (opsText false ops).length < intMax)
    (buf : Region (room + 2)) :
    ∃ jstr given held last rest,
      calls (ops.map Op.run) (strStart (some buf) true) =
        some (List.replicate ops.length 0,jstr) ∧
      strEnd jstr = some ((opsText false ops).length + 1,some last,
        given.map (· ++ [0]) ++ [held ++ 0 :: rest]) ∧
      Spooled (room + 1) (opsText false ops) given held ∧
      ∀ given' held', Spooled (room + 1) (opsText false ops) given' held' →
        given' = given ∧ held' = held := by
  obtain ⟨jstr,given,held,last,rest,ran,ended,spooled⟩ := streamed_run short buf
  exact ⟨jstr,given,held,last,rest,ran,ended,spooled,fun _ _ other => other.unique spooled⟩

def countOps : List Op := [.startObject,.objSetInt (bytes "n") 7,.endObject]

theorem ops_streamed_count : ∃ (jstr : JsonStr 4) (last : Region 4) (rest : Str),
    calls (countOps.map Op.run) (strStart (some (.zeroed 4)) true) = some ([0,0,0],jstr) ∧
    strEnd jstr = some (8,some last,[bytes "\x7b\"n" ++ [0],bytes "\":7" ++ [0],
      bytes "\x7d" ++ 0 :: rest]) := by
  obtain ⟨jstr,given,held,last,rest,ran,ended,_,unique⟩ :=
    @ops_streamed 2 countOps (by decide) (.zeroed 4)
  have windows : Spooled 3 (opsText false countOps) [bytes "\x7b\"n",bytes "\":7"]
      (bytes "\x7d") :=
    ⟨⟨by decide,by decide,by decide⟩,fun _ => by decide⟩
  obtain ⟨rfl,rfl⟩ := unique _ _ windows
  exact ⟨jstr,last,rest,ran,ended⟩

theorem clipped_run {ops : List Op} (short : (opsText false ops).length < intMax)
    (buf : Region (room + 1)) :
    ∃ jstr last rest, calls (ops.map Op.run) (strStart (some buf) false) =
        some (codes (clipCode room) [] false ops,jstr) ∧
      strEnd jstr = some ((opsText false ops).length + 1,some last,[]) ∧
      last.bytes = (opsText false ops).take room ++ 0 :: rest := by
  have start : Clips (strStart (some buf) false) [] :=
    ⟨⟨buf,rfl,by rw [List.take_nil]; rfl⟩,rfl,by rw [List.take_nil]; rfl,rfl,rfl⟩
  obtain ⟨jstr,ran,⟨bytes,stored,front⟩,plain,place,total,flushed⟩ :=
    clips_mode.calls ops start (Nat.le_of_lt short)
  obtain ⟨last,rest,ended,whole⟩ := strEnd_front stored front place
    (Nat.lt_succ_of_le (List.length_take_le _ _)) (total ▸ short)
  have off : ¬jstr.flushCb = true := by
    rw [plain]
    exact Bool.noConfusion
  rw [if_neg off,flushed,total] at ended
  exact ⟨jstr,last,rest,ran,ended,whole⟩

theorem codes_roomy (ops : List Op) : ∀ (text : Str) (comma : Bool),
    (text ++ opsText comma ops).length ≤ room →
      codes (clipCode room) text comma ops = List.replicate ops.length 0 := by
  induction ops with
  | nil =>
    intro text comma _
    rfl
  | cons op ops ih =>
    intro text comma enough
    rw [opsText,← List.append_assoc] at enough
    have short : (text ++ op.text comma).length ≤ room := by
      rw [List.length_append] at enough
      omega
    rw [codes,ih _ _ enough,clipCode,if_neg (fun refused => by omega)]
    rfl

/-- Without a callback the buffer is left with the front of the text, and a call returns -1 if
the text up to its end is longer than that and the last piece it added is not empty. -/
theorem ops_clipped (ops : List Op) (short : (opsText false ops).length < intMax)
    (buf : Region (room + 1)) :
    ∃ returned jstr last rest,
      calls (ops.map Op.run) (strStart (some buf) false) = some (returned,jstr) ∧
      strEnd jstr = some ((opsText false ops).length + 1,some last,[]) ∧
      last.bytes = (opsText false ops).take room ++ 0 :: rest ∧
      ∀ before op after, ops = before ++ op :: after → returned[before.length]? =
        some (if op.final ≠ [] ∧ room < (opsText false (before ++ [op])).length then -1 else 0) := by
  obtain ⟨jstr,last,rest,ran,ended,whole⟩ := clipped_run short buf
  refine ⟨_,jstr,last,rest,ran,ended,whole,?_⟩
  rintro before op after rfl
  exact codes_found _ op after before _ _

theorem ops_clipped_count : ∃ (returned : List Int) (jstr : JsonStr 4) (last : Region 4)
    (rest : Str), calls (countOps.map Op.run) (strStart (some (.zeroed 4)) false) =
        some (returned,jstr) ∧ strEnd jstr = some (8,some last,[]) ∧
      last.bytes = bytes "\x7b\"n" ++ 0 :: rest ∧ returned[0]? = some 0 ∧ returned[1]? = some (-1) := by
  obtain ⟨returned,jstr,last,rest,ran,ended,whole,codes⟩ :=
    @ops_clipped 3 countOps (by decide) (.zeroed 4)
  have first := codes [] .startObject [.objSetInt (bytes "n") 7,.endObject] rfl
  have second := codes [.startObject] (.objSetInt (bytes "n") 7) [.endObject] rfl
  exact ⟨returned,jstr,last,rest,ran,ended,whole,first,second⟩

/-- What a run without a buffer returns is the least size of a buffer in which the same calls
leave the whole text, and with that much room none of them fails. -/
theorem ops_measured (ops : List Op) (short : (opsText false ops).length < intMax)
    (flushCb : Bool) :
    ∃ jstr n, calls (ops.map Op.run) (strStart (none : Option (Region size)) flushCb) =
        some (List.replicate ops.length 0,jstr) ∧
      strEnd jstr = some (n,none,[]) ∧ ∀ room (buf : Region (room + 1)),
        ∃ returned jstr last,
          calls (ops.map Op.run) (strStart (some buf) false) = some (returned,jstr) ∧
          strEnd jstr = some (n,some last,[]) ∧
          ((∃ rest, last.bytes = opsText false ops ++ 0 :: rest) ↔ n ≤ room + 1) ∧
          (n ≤ room + 1 → returned = List.replicate ops.length 0) := by
  have start : Counts (strStart (none : Option (Region size)) flushCb) [] := ⟨rfl,rfl,rfl⟩
  obtain ⟨jstr,ran,counts⟩ := counts_mode.calls ops start (Nat.le_of_lt short)
  rw [codes_zero] at ran
  refine ⟨jstr,(opsText false ops).length + 1,ran,?_,?_⟩
  · have total : jstr.totalLen = (opsText false ops).length := counts.totalLen
    rw [strEnd,total,if_neg (Nat.not_lt_of_le short),counts.buf,counts.flushed]
  intro room buf
  obtain ⟨jstr,last,rest,ran,ended,whole⟩ := clipped_run short buf
  refine ⟨_,jstr,last,ran,ended,⟨?_,?_⟩,?_⟩
  · rintro ⟨behind,all⟩
    have sized := last.sized
    rw [all,List.length_append,List.length_cons] at sized
    omega
  · intro enough
    rw [List.take_of_length_le (by omega)] at whole
    exact ⟨rest,whole⟩
  · intro enough
    exact codes_roomy ops [] false (Nat.le_of_succ_le_succ enough)

theorem ops_measured_count : ∃ (jstr : JsonStr 0),
    calls (countOps.map Op.run) (strStart none false) = some ([0,0,0],jstr) ∧
    strEnd jstr = some (8,none,[]) ∧ ∃ (jstr : JsonStr 8) (last : Region 8) (rest : Str),
      calls (countOps.map Op.run) (strStart (some (.zeroed 8)) false) = some ([0,0,0],jstr) ∧
      strEnd jstr = some (8,some last,[]) ∧ last.bytes = bytes "\x7b\"n\":7\x7d" ++ 0 :: rest := by
  obtain ⟨jstr,n,ran,ended,filled⟩ := @ops_measured 0 countOps (by decide) false
  have counted : calls (countOps.map Op.run) (strStart (none : Option (Region 0)) false) =
      some ([0,0,0],⟨none,false,true,0,7,[]⟩) := rfl
  cases counted.symm.trans ran
  cases ended
  obtain ⟨returned,jstr',last,ran',ended',whole,enough⟩ := filled 7 (.zeroed 8)
  obtain ⟨rest,all⟩ := whole.mpr (Nat.le_refl 8)
  rw [enough (Nat.le_refl 8)] at ran'
  exact ⟨_,ran,rfl,jstr',last,rest,ran',ended',all⟩

end Runs

end QuickConnect.JsonGen
