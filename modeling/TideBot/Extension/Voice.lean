/-
  The microphone and the speaker of the side panel (`sidepanel/voice.ts`).

  A step is what runs between two awaits: a call from the panel, an event of the recorder, of the detection of speech
  or of an audio, or the rest of a call whose await is over.  `stop` is one step, and ends what there is at that
  moment; a call that waits for the microphone or for speech goes on afterwards, and opens what nobody closes
  (`VoiceWorld.Safe` excludes just these steps).

  Streams and audios are numbered as they are made; those that are live, or play, are the world's.  Events of
  recorders and of the detection may come at any time.  The callbacks of the panel do not call back.
-/
import TideBot.Extension.PageText
import TideBot.Lib.Machine

namespace TideBot

open Lib

inductive InputMode where
  | text
  | voice
  deriving DecidableEq

inductive VoiceMode where
  | handsFree
  | pushToTalk
  deriving DecidableEq

/-- `VoiceStatus` -/
structure VoiceStatus where
  inputMode : InputMode
  voiceMode : VoiceMode
  listening : Bool
  recording : Bool
  processing : Bool
  error : Option Text
  deriving DecidableEq

/-- The fields of a `VoiceController`; of the recorder, whether its state is `recording`, of a chunk its size. -/
structure VoiceController where
  current : VoiceStatus
  stream : Option ℕ
  recorder : Option Bool
  vad : Bool
  chunks : List ℕ
  acceptSegment : Bool
  vadRunning : Bool
  playback : Option ℕ
  deriving DecidableEq

/-- The controller, the devices, the calls that wait, and whether `stop` was the last call of the panel that matters. -/
structure VoiceWorld extends VoiceController where
  /-- the streams whose tracks have not been stopped -/
  live : List ℕ
  /-- the audios that play -/
  playing : List ℕ
  /-- the audios whose end is heard -/
  onended : List ℕ
  nextStream : ℕ
  nextAudio : ℕ
  /-- waiting for `getUserMedia` -/
  openings : ℕ
  /-- waiting for `openMicrophone`, which is done -/
  opened : ℕ
  /-- waiting for `openMicrophone`, which has raised -/
  refused : ℕ
  /-- waiting for `api.speak` -/
  speaking : ℕ
  /-- waiting for `play` -/
  plays : List ℕ
  /-- waiting for `transcribe` -/
  transcribing : ℕ
  /-- waiting for `onSubmit` -/
  submitting : ℕ
  stopped : Bool
  deriving DecidableEq

namespace VoiceWorld

/-- A new controller. -/
def initial : VoiceWorld where
  current := ⟨.text, .handsFree, false, false, false, none⟩
  stream := none
  recorder := none
  vad := false
  chunks := []
  acceptSegment := false
  vadRunning := false
  playback := none
  live := []
  playing := []
  onended := []
  nextStream := 0
  nextAudio := 0
  openings := 0
  opened := 0
  refused := 0
  speaking := 0
  plays := []
  transcribing := 0
  submitting := 0
  stopped := false

variable (w : VoiceWorld)

/-! ## Methods -/

def releasePlayback : VoiceWorld :=
  match w.playback with
  | none => w
  | some a => { w with playback := none, onended := w.onended.filter (· ≠ a) }

def interrupt : VoiceWorld :=
  match w.playback with
  | none => w
  | some a => releasePlayback { w with playing := w.playing.filter (· ≠ a) }

def endSegment : VoiceWorld := if w.recorder = some true then { w with recorder := some false } else w

/-- `startSegment`; `starts`: the recorder does not raise. -/
def startSegment (starts : Bool) : VoiceWorld :=
  if w.recorder = some false ∧ !w.current.processing then
    let w := { w.interrupt with chunks := [], acceptSegment := true }
    if starts then { w with recorder := some true, current := { w.current with recording := true } } else w
  else w

/-- `configureMode`; `vadSpeaking`: the detection has heard the start of speech, and ends it when it is stopped. -/
def configureMode (vadSpeaking : Bool) : VoiceWorld :=
  if !w.vad then w
  else if w.current.voiceMode = .handsFree ∧ !w.vadRunning then { w with vadRunning := true }
  else if w.current.voiceMode = .pushToTalk ∧ w.vadRunning then
    { if vadSpeaking then w.endSegment else w with vadRunning := false }
  else w

def listen (vadSpeaking : Bool) : VoiceWorld :=
  let w := w.configureMode vadSpeaking
  { w with current := { w.current with listening := true } }

/-- `selectVoice`, up to its await. -/
def selectVoice (mode : VoiceMode) (vadSpeaking : Bool) : VoiceWorld :=
  let w := { w with current := { w.current with inputMode := .voice, voiceMode := mode, error := none } }
  if w.stream = none then { w with openings := w.openings + 1 } else w.listen vadSpeaking

def setVoiceMode (mode : VoiceMode) (vadSpeaking : Bool) : VoiceWorld :=
  if w.current.inputMode ≠ .voice then w.selectVoice mode vadSpeaking
  else configureMode { w with current := { w.current with voiceMode := mode } } vadSpeaking

/-- `speak`, up to its first await. -/
def speak (text : Text) : VoiceWorld :=
  if Transport.slice 20000 (trimSpaces text) = [] then w else { w.interrupt with speaking := w.speaking + 1 }

/-- `processSegment`, up to its first await. -/
def processSegment : VoiceWorld :=
  { w with current := { w.current with processing := true }, transcribing := w.transcribing + 1 }

/-- The `finally` of `processSegment`. -/
def processed : VoiceWorld := { w with current := { w.current with processing := false } }

/-- `stop`.  The recorder is stopped before the detection, so that an end of speech changes nothing. -/
def stop : VoiceWorld :=
  let w := interrupt { w with
    acceptSegment := false, vad := false, vadRunning := false, live := w.live.filter (some · ≠ w.stream),
    stream := none, recorder := none, chunks := [] }
  { w with current :=
    { w.current with inputMode := .text, listening := false, recording := false, processing := false } }

end VoiceWorld

/-! ## Steps -/

/-- How `getUserMedia` settles, and whether a recorder and a detection can be made. -/
inductive MicrophoneAnswer where
  | denied
  | granted (recorder vad : Bool)
  deriving DecidableEq

inductive VoiceStep where
  | selectVoice (mode : VoiceMode) (vadSpeaking : Bool)
  | setVoiceMode (mode : VoiceMode) (vadSpeaking : Bool)
  | beginPushToTalk (starts : Bool)
  | endPushToTalk
  | speak (text : Text)
  | interrupt
  | stop
  | speechStart (starts : Bool)
  | speechEnd
  | data (size : ℕ)
  | recorderStopped
  /-- The recorder becomes inactive by itself. -/
  | recorderEnds
  | ended (audio : ℕ)
  /-- The rest of `openMicrophone`. -/
  | microphone (answer : MicrophoneAnswer)
  /-- The rest of `selectVoice`, after `openMicrophone`. -/
  | resumed (vadSpeaking : Bool)
  /-- The `catch` of `selectVoice`. -/
  | rejected
  /-- The rest of `speak`, after `api.speak`, which may have raised. -/
  | speech (given : Bool)
  /-- The rest of `speak`, after `play`, which may have raised. -/
  | played (audio : ℕ) (started : Bool)
  /-- The rest of `processSegment`, after `transcribe`; `none`: it has raised. -/
  | transcribed (transcript : Option Text)
  | submitted
  deriving DecidableEq

namespace VoiceWorld

/-- The handler of the recorder's end. -/
def recorderStopped (w : VoiceWorld) : VoiceWorld :=
  let v := { w with chunks := [], acceptSegment := false, current := { w.current with recording := false } }
  if w.acceptSegment ∧ w.chunks ≠ [] then v.processSegment else v

/-- What `openMicrophone` does with the answer. -/
def openMicrophone (w : VoiceWorld) : MicrophoneAnswer → VoiceWorld
  | .denied => { w with refused := w.refused + 1 }
  | .granted recorder vad =>
    let w := { w with stream := some w.nextStream, live := w.live ++ [w.nextStream], nextStream := w.nextStream + 1 }
    if !recorder then { w with refused := w.refused + 1 }
    else if !vad then { w with recorder := some false, refused := w.refused + 1 }
    else { w with recorder := some false, vad := true, opened := w.opened + 1 }

/-- The audio is made, and `play` is called. -/
def playSpeech (w : VoiceWorld) : VoiceWorld :=
  { w with playback := some w.nextAudio, onended := w.onended ++ [w.nextAudio], playing := w.playing ++ [w.nextAudio],
           plays := w.plays ++ [w.nextAudio], nextAudio := w.nextAudio + 1 }

/-- The audio does not play any more. -/
def silent (w : VoiceWorld) (audio : ℕ) : VoiceWorld := { w with playing := w.playing.filter (· ≠ audio) }

/-- The rest of `processSegment`. -/
def transcribed (w : VoiceWorld) : Option Text → VoiceWorld
  | none => w.processed
  | some transcript =>
    if trimSpaces transcript ≠ [] ∧ w.current.voiceMode = .handsFree then { w with submitting := w.submitting + 1 }
    else w.processed

/-- A step, if it can be taken: no call goes on that does not wait. -/
def step (w : VoiceWorld) : VoiceStep → Option VoiceWorld
  | .selectVoice mode vadSpeaking => some { w.selectVoice mode vadSpeaking with stopped := false }
  | .setVoiceMode mode vadSpeaking => some { w.setVoiceMode mode vadSpeaking with stopped := false }
  | .beginPushToTalk starts =>
    some (if w.current.inputMode = .voice ∧ w.current.voiceMode = .pushToTalk then w.startSegment starts else w)
  | .endPushToTalk => some (if w.current.voiceMode = .pushToTalk then w.endSegment else w)
  | .speak text => some { w.speak text with stopped := false }
  | .interrupt => some w.interrupt
  | .stop => some { w.stop with stopped := true }
  | .speechStart starts => some (w.startSegment starts)
  | .speechEnd => some w.endSegment
  | .data size => some (if 0 < size then { w with chunks := w.chunks ++ [size] } else w)
  | .recorderStopped => some w.recorderStopped
  | .recorderEnds => some w.endSegment
  | .ended audio =>
    if audio ∈ w.playing then
      some (if audio ∈ w.onended then (w.silent audio).releasePlayback else w.silent audio)
    else none
  | .microphone answer =>
    if w.openings = 0 then none else some (openMicrophone { w with openings := w.openings - 1 } answer)
  | .resumed vadSpeaking => if w.opened = 0 then none else some (listen { w with opened := w.opened - 1 } vadSpeaking)
  | .rejected =>
    if w.refused = 0 then none
    else some { w with
      refused := w.refused - 1
      current := { w.current with inputMode := .text, listening := false, error := some (.lit "microphone_denied") } }
  | .speech given =>
    if w.speaking = 0 then none
    else
      let w := { w with speaking := w.speaking - 1 }
      some (if given then w.playSpeech else w)
  | .played audio started =>
    if audio ∈ w.plays then
      let w := { w with plays := w.plays.erase audio }
      some (if started then w else (w.silent audio).releasePlayback)
    else none
  | .transcribed transcript =>
    if w.transcribing = 0 then none else some (transcribed { w with transcribing := w.transcribing - 1 } transcript)
  | .submitted => if w.submitting = 0 then none else some (processed { w with submitting := w.submitting - 1 })

end VoiceWorld

/-- The steps of the panel, the devices and the awaits. -/
def voiceMachine : Machine VoiceWorld VoiceStep Unit where
  step w i := (w.step i).map fun w' => (w', ())

/-! ## What `stop` promises -/

namespace VoiceWorld

/-- No call waits. -/
def Settled (w : VoiceWorld) : Prop :=
  w.openings = 0 ∧ w.opened = 0 ∧ w.refused = 0 ∧ w.speaking = 0 ∧ w.plays = [] ∧ w.transcribing = 0 ∧
    w.submitting = 0

/-- No track is live, nothing plays, and the status says so. -/
def Closed (w : VoiceWorld) : Prop :=
  w.live = [] ∧ w.playing = [] ∧ w.current.inputMode = .text ∧ w.current.listening = false ∧
    w.current.recording = false ∧ w.current.processing = false

/-- **The condition on a step**: the microphone is not opened after `stop`, or beside another one, a call does not go
    on listening after `stop`, speech is not played after `stop`, or beside another audio, and what could not be
    played is not taken for another audio. -/
def Safe (w : VoiceWorld) : VoiceStep → Prop
  | .microphone (.granted _ _) => w.stream = none ∧ w.stopped = false
  | .resumed _ => w.stopped = false
  | .speech true => w.playback = none ∧ w.stopped = false
  | .played audio false => w.playback = none ∨ w.playback = some audio
  | _ => True

instance (w : VoiceWorld) : (i : VoiceStep) → Decidable (w.Safe i)
  | .microphone (.granted ..) | .speech true => inferInstanceAs (Decidable (_ ∧ _))
  | .resumed _ => inferInstanceAs (Decidable (_ = _))
  | .played _ false => inferInstanceAs (Decidable (_ ∨ _))
  | .microphone .denied | .speech false | .played _ true | .selectVoice .. | .setVoiceMode .. | .beginPushToTalk _
  | .endPushToTalk | .speak _ | .interrupt | .stop | .speechStart _ | .speechEnd | .data _ | .recorderStopped
  | .recorderEnds | .ended _ | .rejected | .transcribed _ | .submitted => inferInstanceAs (Decidable True)

instance (w : VoiceWorld) : Decidable w.Closed := inferInstanceAs (Decidable (_ ∧ _))

instance (w : VoiceWorld) : Decidable w.Settled := inferInstanceAs (Decidable (_ ∧ _))

/-! ## Methods, one by one -/

/-- The devices are as they were: the tracks, the audios, and whether `stop` was last. -/
structure Kept (w w' : VoiceWorld) : Prop where
  live : w'.live = w.live
  stream : w'.stream = w.stream
  playing : w'.playing = w.playing
  playback : w'.playback = w.playback
  stopped : w'.stopped = w.stopped

/-- What holds in every run: what is live is known, what plays is known, and after `stop` nothing is known. -/
structure Sound (w : VoiceWorld) : Prop where
  tracks : ∀ s ∈ w.live, w.stream = some s
  audios : ∀ a ∈ w.playing, w.playback = some a
  idle : w.stopped → w.stream = none ∧ w.recorder = none ∧ w.playback = none ∧ w.acceptSegment = false
  status : w.stopped → w.current.inputMode = .text ∧ w.current.listening = false ∧ w.current.recording = false ∧
    w.current.processing = false

variable {w w' : VoiceWorld}

theorem Kept.refl (w : VoiceWorld) : Kept w w := ⟨rfl, rfl, rfl, rfl, rfl⟩

theorem endSegment_kept (w : VoiceWorld) : Kept w w.endSegment := by
  unfold endSegment
  split_ifs
  · exact ⟨rfl, rfl, rfl, rfl, rfl⟩
  · exact .refl w

theorem configureMode_kept (w : VoiceWorld) (vadSpeaking : Bool) : Kept w (w.configureMode vadSpeaking) := by
  have hend := endSegment_kept w
  unfold configureMode
  split_ifs
  · exact .refl w
  · exact ⟨rfl, rfl, rfl, rfl, rfl⟩
  · exact ⟨hend.live, hend.stream, hend.playing, hend.playback, hend.stopped⟩
  · exact ⟨rfl, rfl, rfl, rfl, rfl⟩
  · exact .refl w

theorem listen_kept (w : VoiceWorld) (vadSpeaking : Bool) : Kept w (w.listen vadSpeaking) := by
  have hmode := configureMode_kept w vadSpeaking
  exact ⟨hmode.live, hmode.stream, hmode.playing, hmode.playback, hmode.stopped⟩

theorem selectVoice_kept (w : VoiceWorld) (mode : VoiceMode) (vadSpeaking : Bool) :
    Kept w (w.selectVoice mode vadSpeaking) := by
  unfold selectVoice
  simp only
  split_ifs
  · exact ⟨rfl, rfl, rfl, rfl, rfl⟩
  · have hlisten := listen_kept
      { w with current := { w.current with inputMode := .voice, voiceMode := mode, error := none } } vadSpeaking
    exact ⟨hlisten.live, hlisten.stream, hlisten.playing, hlisten.playback, hlisten.stopped⟩

theorem setVoiceMode_kept (w : VoiceWorld) (mode : VoiceMode) (vadSpeaking : Bool) :
    Kept w (w.setVoiceMode mode vadSpeaking) := by
  unfold setVoiceMode
  split_ifs
  · exact selectVoice_kept w mode vadSpeaking
  · have hmode := configureMode_kept { w with current := { w.current with voiceMode := mode } } vadSpeaking
    exact ⟨hmode.live, hmode.stream, hmode.playing, hmode.playback, hmode.stopped⟩

theorem interrupt_fields (w : VoiceWorld) : w.interrupt.live = w.live ∧ w.interrupt.stream = w.stream ∧
    w.interrupt.playback = none ∧ w.interrupt.stopped = w.stopped ∧ w.interrupt.current = w.current ∧
      w.interrupt.recorder = w.recorder ∧ w.interrupt.acceptSegment = w.acceptSegment := by
  unfold interrupt releasePlayback
  rcases hplayback : w.playback with _ | a
  · exact ⟨rfl, rfl, hplayback, rfl, rfl, rfl, rfl⟩
  · simp [hplayback]

/-- **After an interruption nothing plays.** -/
theorem interrupt_playing (h : ∀ a ∈ w.playing, w.playback = some a) : w.interrupt.playing = [] := by
  unfold interrupt releasePlayback
  rcases hplayback : w.playback with _ | a
  · refine List.eq_nil_iff_forall_not_mem.2 fun a ha => ?_
    rw [hplayback] at h
    cases h a ha
  · simp only [hplayback]
    refine List.filter_eq_nil_iff.2 fun b hb => ?_
    rw [hplayback] at h
    cases h b hb
    simp

theorem releasePlayback_fields (w : VoiceWorld) : w.releasePlayback.live = w.live ∧
    w.releasePlayback.stream = w.stream ∧ w.releasePlayback.playing = w.playing ∧ w.releasePlayback.playback = none ∧
      w.releasePlayback.stopped = w.stopped ∧ w.releasePlayback.current = w.current ∧
        w.releasePlayback.recorder = w.recorder ∧ w.releasePlayback.acceptSegment = w.acceptSegment := by
  unfold releasePlayback
  rcases hplayback : w.playback with _ | a
  · exact ⟨rfl, rfl, rfl, hplayback, rfl, rfl, rfl, rfl⟩
  · exact ⟨rfl, rfl, rfl, rfl, rfl, rfl, rfl, rfl⟩

namespace Sound

theorem called (h : Sound w) (hkept : Kept w w') : Sound { w' with stopped := false } := by
  refine ⟨?_, ?_, fun hstopped => ?_, fun hstopped => ?_⟩
  · show ∀ s ∈ w'.live, w'.stream = some s
    rw [hkept.live, hkept.stream]
    exact h.tracks
  · show ∀ a ∈ w'.playing, w'.playback = some a
    rw [hkept.playing, hkept.playback]
    exact h.audios
  · cases hstopped
  · cases hstopped

theorem running (h : Sound w) (hstopped : w.stopped = false) (hkept : Kept w w') : Sound w' := by
  have hstopped' : w'.stopped = false := hkept.stopped.trans hstopped
  refine ⟨?_, ?_, fun hstop => ?_, fun hstop => ?_⟩
  · rw [hkept.live, hkept.stream]
    exact h.tracks
  · rw [hkept.playing, hkept.playback]
    exact h.audios
  · rw [hstopped'] at hstop
    cases hstop
  · rw [hstopped'] at hstop
    cases hstop

theorem still (h : Sound w) (hkept : Kept w w') (hrecorder : w.stopped → w'.recorder = w.recorder)
    (haccept : w.stopped → w'.acceptSegment = w.acceptSegment)
    (hstatus : w.stopped → w'.current.inputMode = .text ∧ w'.current.listening = false ∧
      w'.current.recording = false ∧ w'.current.processing = false) : Sound w' := by
  refine ⟨?_, ?_, fun hstopped => ?_, fun hstopped => ?_⟩
  · rw [hkept.live, hkept.stream]
    exact h.tracks
  · rw [hkept.playing, hkept.playback]
    exact h.audios
  · rw [hkept.stopped] at hstopped
    obtain ⟨hstream, hnone, hplayback, hno⟩ := h.idle hstopped
    rw [hkept.stream, hkept.playback, hrecorder hstopped, haccept hstopped]
    exact ⟨hstream, hnone, hplayback, hno⟩
  · rw [hkept.stopped] at hstopped
    exact hstatus hstopped

theorem interrupt (h : Sound w) : Sound w.interrupt := by
  obtain ⟨hlive, hstream, hplayback, hstopped, hcurrent, hrecorder, haccept⟩ := interrupt_fields w
  refine ⟨?_, ?_, ?_, ?_⟩
  · rw [hlive, hstream]
    exact h.tracks
  · rw [interrupt_playing h.audios]
    simp
  · rw [hstopped, hstream, hrecorder, haccept, hplayback]
    intro hstop
    obtain ⟨hno, hnone, -, hfalse⟩ := h.idle hstop
    exact ⟨hno, hnone, rfl, hfalse⟩
  · rw [hstopped, hcurrent]
    exact h.status

theorem endSegment (h : Sound w) : Sound w.endSegment := by
  refine h.still (endSegment_kept w) (fun hstopped => ?_) (fun _ => ?_) fun hstopped => ?_
  · rw [VoiceWorld.endSegment, if_neg]
    rw [(h.idle hstopped).2.1]
    simp
  · unfold VoiceWorld.endSegment
    split_ifs <;> rfl
  · have hcurrent : w.endSegment.current = w.current := by
      unfold VoiceWorld.endSegment
      split_ifs <;> rfl
    rw [hcurrent]
    exact h.status hstopped

theorem startSegment (h : Sound w) (starts : Bool) : Sound (w.startSegment starts) := by
  unfold VoiceWorld.startSegment
  by_cases hready : w.recorder = some false ∧ !w.current.processing
  · -- there is a recorder, so that `stop` was not last
    have hstopped : w.stopped = false := by
      by_contra hstop
      rw [Bool.not_eq_false] at hstop
      rw [(h.idle hstop).2.1] at hready
      cases hready.1
    rw [if_pos hready]
    have hinterrupt := h.interrupt
    have hrunning : w.interrupt.stopped = false := (interrupt_fields w).2.2.2.1.trans hstopped
    cases starts
    · exact hinterrupt.running hrunning ⟨rfl, rfl, rfl, rfl, rfl⟩
    · exact hinterrupt.running hrunning ⟨rfl, rfl, rfl, rfl, rfl⟩
  · rw [if_neg hready]
    exact h

/-- **`stop`** ends what there is. -/
theorem stop (h : Sound w) : Sound { w.stop with stopped := true } := by
  let v : VoiceWorld := { w with
    acceptSegment := false, vad := false, vadRunning := false, live := w.live.filter (some · ≠ w.stream),
    stream := none, recorder := none, chunks := [] }
  obtain ⟨hlive, hstream, hplayback, -, -, hrecorder, haccept⟩ := interrupt_fields v
  have hplaying : v.interrupt.playing = [] := interrupt_playing h.audios
  refine ⟨?_, ?_, fun _ => ⟨hstream, hrecorder, hplayback, haccept⟩, fun _ => ⟨rfl, rfl, rfl, rfl⟩⟩
  · show ∀ s ∈ v.interrupt.live, v.interrupt.stream = some s
    intro s hs
    rw [hlive] at hs
    obtain ⟨hmem, hne⟩ := List.mem_filter.1 hs
    rw [h.tracks s hmem] at hne
    simp at hne
  · show ∀ a ∈ v.interrupt.playing, v.interrupt.playback = some a
    rw [hplaying]
    simp

theorem speak (h : Sound w) (text : Text) : Sound { w.speak text with stopped := false } := by
  unfold VoiceWorld.speak
  split_ifs
  · exact h.called (.refl w)
  · exact h.interrupt.called ⟨rfl, rfl, rfl, rfl, rfl⟩

theorem recorderStopped (h : Sound w) : Sound w.recorderStopped := by
  have hcleared : Sound { w with
      chunks := [], acceptSegment := false, current := { w.current with recording := false } } := by
    refine h.still ⟨rfl, rfl, rfl, rfl, rfl⟩ (fun _ => rfl) (fun hstopped => (h.idle hstopped).2.2.2.symm) ?_
    intro hstopped
    obtain ⟨hinput, hlistening, -, hprocessing⟩ := h.status hstopped
    exact ⟨hinput, hlistening, rfl, hprocessing⟩
  unfold VoiceWorld.recorderStopped
  simp only
  split_ifs with haccepted
  · have hstopped : w.stopped = false := by
      by_contra hstop
      rw [Bool.not_eq_false] at hstop
      rw [(h.idle hstop).2.2.2] at haccepted
      cases haccepted.1
    exact hcleared.running hstopped ⟨rfl, rfl, rfl, rfl, rfl⟩
  · exact hcleared

theorem processed (h : Sound w) : Sound w.processed := by
  refine h.still ⟨rfl, rfl, rfl, rfl, rfl⟩ (fun _ => rfl) (fun _ => rfl) fun hstopped => ?_
  obtain ⟨hinput, hlistening, hrecording, -⟩ := h.status hstopped
  exact ⟨hinput, hlistening, hrecording, rfl⟩

/-- The end of an audio, of which the controller knows: it was the one that was known. -/
theorem silent (h : Sound w) (audio : ℕ) : Sound (w.silent audio) := by
  refine ⟨h.tracks, ?_, h.idle, h.status⟩
  intro a ha
  exact h.audios a (List.mem_filter.1 ha).1

theorem release (h : Sound w) (hplaying : w.playing = []) : Sound w.releasePlayback := by
  obtain ⟨hlive, hstream, hplaying', hplayback, hstopped, hcurrent, hrecorder, haccept⟩ := releasePlayback_fields w
  refine ⟨?_, ?_, ?_, ?_⟩
  · rw [hlive, hstream]
    exact h.tracks
  · rw [hplaying', hplaying]
    simp
  · rw [hstopped, hstream, hrecorder, haccept, hplayback]
    intro hstop
    obtain ⟨hno, hnone, -, hfalse⟩ := h.idle hstop
    exact ⟨hno, hnone, rfl, hfalse⟩
  · rw [hstopped, hcurrent]
    exact h.status

theorem silent_playing (h : Sound w) {audio : ℕ} (haudio : w.playback = none ∨ w.playback = some audio) :
    (w.silent audio).playing = [] := by
  refine List.filter_eq_nil_iff.2 fun a ha => ?_
  have hknown := h.audios a ha
  rcases haudio with hnone | hsome
  · rw [hnone] at hknown
    cases hknown
  · rw [hsome] at hknown
    cases hknown
    simp

/-- **The microphone is opened** while there is none, and `stop` was not last. -/
theorem openMicrophone (h : Sound w) {answer : MicrophoneAnswer} (hsafe : w.Safe (.microphone answer)) :
    Sound (w.openMicrophone answer) := by
  rcases answer with _ | ⟨recorder, vad⟩
  · exact h.still ⟨rfl, rfl, rfl, rfl, rfl⟩ (fun _ => rfl) (fun _ => rfl) h.status
  · obtain ⟨hnone, hstopped⟩ := hsafe
    have hopened : Sound { w with
        stream := some w.nextStream, live := w.live ++ [w.nextStream], nextStream := w.nextStream + 1 } := by
      refine ⟨fun s hs => ?_, h.audios, fun hstop => ?_, fun hstop => ?_⟩
      · rcases List.mem_append.1 hs with hs | hs
        · have hknown := h.tracks s hs
          rw [hnone] at hknown
          cases hknown
        · rw [List.mem_singleton.1 hs]
      · rw [hstopped] at hstop
        cases hstop
      · rw [hstopped] at hstop
        cases hstop
    unfold VoiceWorld.openMicrophone
    simp only
    split_ifs
    · exact hopened.running hstopped ⟨rfl, rfl, rfl, rfl, rfl⟩
    · exact hopened.running hstopped ⟨rfl, rfl, rfl, rfl, rfl⟩
    · exact hopened.running hstopped ⟨rfl, rfl, rfl, rfl, rfl⟩

/-- **Speech is played** while there is no other audio, and `stop` was not last. -/
theorem playSpeech (h : Sound w) (hnone : w.playback = none) (hstopped : w.stopped = false) : Sound w.playSpeech := by
  refine ⟨h.tracks, fun a ha => ?_, fun hstop => ?_, fun hstop => ?_⟩
  · rcases List.mem_append.1 ha with ha | ha
    · have hknown := h.audios a ha
      rw [hnone] at hknown
      cases hknown
    · rw [List.mem_singleton.1 ha]
      rfl
  · have hstop' : w.stopped = true := hstop
    rw [hstopped] at hstop'
    cases hstop'
  · have hstop' : w.stopped = true := hstop
    rw [hstopped] at hstop'
    cases hstop'

theorem transcribed (h : Sound w) (transcript : Option Text) : Sound (w.transcribed transcript) := by
  rcases transcript with _ | transcript
  · exact h.processed
  · unfold VoiceWorld.transcribed
    simp only
    split_ifs
    · exact h.still ⟨rfl, rfl, rfl, rfl, rfl⟩ (fun _ => rfl) (fun _ => rfl) h.status
    · exact h.processed

theorem waiting (h : Sound w) (hkept : Kept w w') (hrecorder : w'.recorder = w.recorder)
    (haccept : w'.acceptSegment = w.acceptSegment) (hcurrent : w'.current = w.current) : Sound w' := by
  refine h.still hkept (fun _ => hrecorder) (fun _ => haccept) ?_
  rw [hcurrent]
  exact h.status

/-- **Every step** that meets the condition keeps what is known. -/
theorem step (h : Sound w) {i : VoiceStep} (hsafe : w.Safe i) (hstep : w.step i = some w') : Sound w' := by
  cases i with
  | selectVoice mode vadSpeaking =>
    cases hstep
    exact h.called (selectVoice_kept w mode vadSpeaking)
  | setVoiceMode mode vadSpeaking =>
    cases hstep
    exact h.called (setVoiceMode_kept w mode vadSpeaking)
  | beginPushToTalk starts =>
    cases hstep
    split_ifs
    · exact h.startSegment starts
    · exact h
  | endPushToTalk =>
    cases hstep
    split_ifs
    · exact h.endSegment
    · exact h
  | speak text =>
    cases hstep
    exact h.speak text
  | interrupt =>
    cases hstep
    exact h.interrupt
  | stop =>
    cases hstep
    exact h.stop
  | speechStart starts =>
    cases hstep
    exact h.startSegment starts
  | speechEnd =>
    cases hstep
    exact h.endSegment
  | data size =>
    cases hstep
    split_ifs
    · exact h.waiting ⟨rfl, rfl, rfl, rfl, rfl⟩ rfl rfl rfl
    · exact h
  | recorderStopped =>
    cases hstep
    exact h.recorderStopped
  | recorderEnds =>
    cases hstep
    exact h.endSegment
  | ended audio =>
    simp only [VoiceWorld.step] at hstep
    split_ifs at hstep with hmem hheard
    · cases hstep
      exact (h.silent audio).release (h.silent_playing (.inr (h.audios audio hmem)))
    · cases hstep
      exact h.silent audio
  | microphone answer =>
    simp only [VoiceWorld.step] at hstep
    split_ifs at hstep
    cases hstep
    have hwaiting : Sound { w with openings := w.openings - 1 } := h.waiting ⟨rfl, rfl, rfl, rfl, rfl⟩ rfl rfl rfl
    refine hwaiting.openMicrophone ?_
    cases answer with
    | denied => trivial
    | granted recorder vad => exact hsafe
  | resumed vadSpeaking =>
    simp only [VoiceWorld.step] at hstep
    split_ifs at hstep
    cases hstep
    have hlisten := listen_kept { w with opened := w.opened - 1 } vadSpeaking
    exact h.running hsafe ⟨hlisten.live, hlisten.stream, hlisten.playing, hlisten.playback, hlisten.stopped⟩
  | rejected =>
    simp only [VoiceWorld.step] at hstep
    split_ifs at hstep
    cases hstep
    refine h.still ⟨rfl, rfl, rfl, rfl, rfl⟩ (fun _ => rfl) (fun _ => rfl) fun hstopped => ?_
    obtain ⟨-, -, hrecording, hprocessing⟩ := h.status hstopped
    exact ⟨rfl, rfl, hrecording, hprocessing⟩
  | speech given =>
    simp only [VoiceWorld.step] at hstep
    split_ifs at hstep with hnot hgiven
    · cases hstep
      have hwaiting : Sound { w with speaking := w.speaking - 1 } := h.waiting ⟨rfl, rfl, rfl, rfl, rfl⟩ rfl rfl rfl
      rw [hgiven] at hsafe
      exact hwaiting.playSpeech hsafe.1 hsafe.2
    · cases hstep
      exact h.waiting ⟨rfl, rfl, rfl, rfl, rfl⟩ rfl rfl rfl
  | played audio started =>
    simp only [VoiceWorld.step] at hstep
    split_ifs at hstep with hmem hstarted
    · cases hstep
      exact h.waiting ⟨rfl, rfl, rfl, rfl, rfl⟩ rfl rfl rfl
    · cases hstep
      have hwaiting : Sound { w with plays := w.plays.erase audio } :=
        h.waiting ⟨rfl, rfl, rfl, rfl, rfl⟩ rfl rfl rfl
      rw [Bool.not_eq_true] at hstarted
      rw [hstarted] at hsafe
      exact (hwaiting.silent audio).release (hwaiting.silent_playing hsafe)
  | transcribed transcript =>
    simp only [VoiceWorld.step] at hstep
    split_ifs at hstep
    cases hstep
    have hwaiting : Sound { w with transcribing := w.transcribing - 1 } :=
      h.waiting ⟨rfl, rfl, rfl, rfl, rfl⟩ rfl rfl rfl
    exact hwaiting.transcribed transcript
  | submitted =>
    simp only [VoiceWorld.step] at hstep
    split_ifs at hstep
    cases hstep
    have hwaiting : Sound { w with submitting := w.submitting - 1 } := h.waiting ⟨rfl, rfl, rfl, rfl, rfl⟩ rfl rfl rfl
    exact hwaiting.processed

theorem initial : Sound .initial := ⟨by simp [VoiceWorld.initial], by simp [VoiceWorld.initial], nofun, nofun⟩

theorem closed (h : Sound w) (hstopped : w.stopped) : w.Closed := by
  obtain ⟨hstream, -, hplayback, -⟩ := h.idle hstopped
  refine ⟨List.eq_nil_iff_forall_not_mem.2 fun s hs => ?_, List.eq_nil_iff_forall_not_mem.2 fun a ha => ?_,
    h.status hstopped⟩
  · have hknown := h.tracks s hs
    rw [hstream] at hknown
    cases hknown
  · have hknown := h.audios a ha
    rw [hplayback] at hknown
    cases hknown

end Sound

end VoiceWorld

/-- **After `stop` the microphone and the speaker are closed**, once all calls have settled, in every run whose steps
    all meet the condition. -/
theorem voiceStopped {tr : List (VoiceStep × Unit)} {w : VoiceWorld}
    (hrun : voiceMachine.RunIn VoiceWorld.Safe .initial tr w) (hstopped : w.stopped) (_ : w.Settled) : w.Closed := by
  have hsound : w.Sound := by
    refine hrun.invariant (I := VoiceWorld.Sound) ?_ .initial
    intro w i w' _ hsafe hw hstep
    obtain ⟨w'', hw', heq⟩ := Option.map_eq_some_iff.1 hstep
    cases heq
    exact hw.step hsafe hw'
  exact hsound.closed hstopped

namespace Sample

/-- Voice is selected, something is said and played, and `stop` is called. -/
def voiceCalls : List VoiceStep :=
  [.selectVoice .handsFree false, .microphone (.granted true true), .resumed false, .speechStart true, .data 9, .stop,
    .recorderStopped, .selectVoice .pushToTalk false, .microphone (.granted true true), .resumed false,
    .speak (.lit "Hi"), .speech true, .played 0 true, .stop]

/-- `stop` is called while the microphone is being opened. -/
def stopBeforeMicrophone : List VoiceStep :=
  [.selectVoice .handsFree false, .stop, .microphone (.granted true true), .resumed false]

end Sample

/-- After the last call, nothing is open. -/
theorem voiceStopped_calls : ∃ tr w, tr.map Prod.fst = Sample.voiceCalls ∧
    voiceMachine.RunIn VoiceWorld.Safe .initial tr w ∧ w.stopped ∧ w.Settled ∧ w.Closed := by
  obtain ⟨r, hr, hend⟩ : ∃ r ∈ voiceMachine.exec VoiceWorld.Safe .initial Sample.voiceCalls,
      r.2.stopped ∧ r.2.Settled := by
    decide +kernel
  have hrun := Machine.runIn_of_exec hr
  exact ⟨r.1, r.2, Machine.inputs_of_exec hr, hrun, hend.1, hend.2, voiceStopped hrun hend.1 hend.2⟩

/-- The microphone is open after `stop`, and the status says that it listens. -/
theorem voiceStopped_fails : ∃ tr w, tr.map Prod.fst = Sample.stopBeforeMicrophone ∧
    voiceMachine.Run .initial tr w ∧ w.stopped ∧ w.Settled ∧ ¬w.Closed := by
  obtain ⟨r, hr, hend⟩ : ∃ r ∈ voiceMachine.exec (fun _ _ => True) .initial Sample.stopBeforeMicrophone,
      r.2.stopped ∧ r.2.Settled ∧ ¬r.2.Closed := by
    decide +kernel
  exact ⟨r.1, r.2, Machine.inputs_of_exec hr, Machine.runIn_of_exec hr, hend⟩

end TideBot
