import ToDoList.Header

/-!
# The line buffer of the manager (replication_manager.c)

The servers and the factories clear `msg_buf` behind each pair. The manager does
not, so that `sscanf`, which stops at a NUL, reads on behind a line in what
longer lines before it have left.
-/

namespace ToDoList
open CLib

/-! ### The loop with its buffer -/

def clearedBuf : Bytes := List.replicate maxMsgSize 0

def storeLine (msgBuf line : Bytes) : Bytes := line ++ msgBuf.drop line.length

def bufString (msgBuf : Bytes) : Except Fault Bytes :=
  if (0 : UInt8) ∈ msgBuf then .ok (cString msgBuf) else .error .outOfBounds

section
variable {σ ρ : Type} (parse : σ → Bytes → Bytes → Except ρ σ)

/-- The loop over the lines, with `msg_buf` as it is; `clears` tells whether a pair
that has been taken is followed by the `memset`. -/
def bufferLoop (clears : Bool) (left : ℕ) (r : SockBufRead) (msgBuf : Bytes) (ctx : σ) :
    Except Fault (HeaderEnd σ ρ) :=
  match sockReadline maxMsgSize r with
  | .error f => .error f
  | .ok (line, r) =>
    if line = [] then .ok (.closed ctx)
    else if line = [byte '\r', byte '\n'] then .ok (.accepted ctx r)
    else
      match left with
      | 0 => .ok (.tooMany ctx)
      | left + 1 =>
        match bufString (storeLine msgBuf line) with
        | .error f => .error f
        | .ok msg =>
          match keyValue msg with
          | none => .ok (.malformed ctx)
          | some (key, value) =>
            match parse ctx key value with
            | .error why => .ok (.refused ctx why)
            | .ok ctx =>
              bufferLoop clears left r (if clears then clearedBuf else storeLine msgBuf line) ctx

def managerLoop (left : ℕ) (r : SockBufRead) (msgBuf : Bytes) (ctx : σ) :
    Except Fault (HeaderEnd σ ρ) := bufferLoop parse false left r msgBuf ctx

theorem bufferLoop_turn {clears : Bool} {left : ℕ} {r q : SockBufRead} {msgBuf line msg : Bytes}
    {ctx : σ} (hread : sockReadline maxMsgSize r = .ok (line, q)) (hne : line ≠ [])
    (hend : line ≠ [byte '\r', byte '\n']) (hmsg : bufString (storeLine msgBuf line) = .ok msg) :
    bufferLoop parse clears (left + 1) r msgBuf ctx =
      match keyValue msg with
      | none => .ok (.malformed ctx)
      | some (key, value) =>
        match parse ctx key value with
        | .error why => .ok (.refused ctx why)
        | .ok ctx =>
          bufferLoop parse clears left q (if clears then clearedBuf else storeLine msgBuf line) ctx := by
  rw [bufferLoop.eq_def, hread]
  dsimp only
  rw [if_neg hne, if_neg hend, hmsg]

end

/-! ### The servers and the factories -/

theorem sockReadline_length {n : ℕ} {r q : SockBufRead} {line : Bytes}
    (h : sockReadline n r = .ok (line, q)) : line.length ≤ n := by
  induction n generalizing r line with
  | zero =>
    cases h
    exact le_refl 0
  | succ n ih =>
    rcases sockReadline_cases h with ⟨rfl | rfl, -⟩ | ⟨c, t, rest, -, -, hmore, rfl⟩
    · exact Nat.zero_le _
    · exact Nat.succ_le_succ (Nat.zero_le n)
    · exact Nat.succ_le_succ (ih hmore)

theorem cString_padded (line : Bytes) (n : ℕ) :
    cString (line ++ List.replicate n 0) = cString line := by
  induction line with
  | nil => cases n <;> rfl
  | cons b line ih =>
    unfold cString at ih ⊢
    rw [List.cons_append, List.takeWhile_cons, List.takeWhile_cons, ih]

theorem cString_cleared (line : Bytes) : cString (storeLine clearedBuf line) = cString line := by
  rw [storeLine, clearedBuf, List.drop_replicate, cString_padded]

theorem bufString_cleared {line : Bytes} (hlen : line.length ≤ maxMsgSize) :
    bufString (storeLine clearedBuf line) = msgString line := by
  have hbuf : storeLine clearedBuf line = line ++ List.replicate (maxMsgSize - line.length) 0 := by
    rw [storeLine, clearedBuf, List.drop_replicate]
  unfold bufString msgString
  rw [hbuf, cString_padded]
  by_cases hnul : (0 : UInt8) ∈ line
  · rw [if_pos (List.mem_append_left _ hnul), if_pos (Or.inr hnul)]
  · by_cases hshort : line.length < maxMsgSize
    · have hpad : (0 : UInt8) ∈ List.replicate (maxMsgSize - line.length) 0 := by
        rw [List.mem_replicate]
        exact ⟨by omega, rfl⟩
      rw [if_pos (List.mem_append_right _ hpad), if_pos (Or.inl hshort)]
    · have hfull : maxMsgSize - line.length = 0 := by omega
      rw [hfull, List.replicate_zero, List.append_nil, if_neg hnul, if_neg (not_or.mpr ⟨hshort, hnul⟩)]

/-- A buffer that is cleared makes each line a string of its own: this is the loop of
`handle_connection` and `handle_replication_manager_message`. -/
theorem bufferLoop_cleared {σ ρ : Type} (parse : σ → Bytes → Bytes → Except ρ σ) (left : ℕ)
    (r : SockBufRead) (ctx : σ) :
    bufferLoop parse true left r clearedBuf ctx = headerLoop parse left r ctx := by
  induction left generalizing r ctx with
  | zero =>
    unfold bufferLoop headerLoop
    cases hread : sockReadline maxMsgSize r with
    | error f => rfl
    | ok p => rfl
  | succ left ih =>
    unfold bufferLoop headerLoop
    cases hread : sockReadline maxMsgSize r with
    | error f => rfl
    | ok p =>
      obtain ⟨line, q⟩ := p
      dsimp only
      rw [bufString_cleared (sockReadline_length hread)]
      by_cases hne : line = []
      · rw [if_pos hne, if_pos hne]
      rw [if_neg hne, if_neg hne]
      by_cases hend : line = [byte '\r', byte '\n']
      · rw [if_pos hend, if_pos hend]
      rw [if_neg hend, if_neg hend]
      cases msgString line with
      | error f => rfl
      | ok msg =>
        dsimp only
        cases keyValue msg with
        | none => rfl
        | some pair =>
          dsimp only
          cases parse ctx pair.1 pair.2 with
          | error why => rfl
          | ok ctx' => exact ih q ctx'

/-! ### One line and the bytes behind it -/

def Blank (s : Bytes) : Prop := s.dropWhile isSpace = []

instance (s : Bytes) : Decidable (Blank s) := inferInstanceAs (Decidable (_ = _))

theorem blank_append (s t : Bytes) : Blank (s ++ t) ↔ Blank s ∧ Blank t := by
  unfold Blank
  rw [List.dropWhile_append]
  by_cases hs : s.dropWhile isSpace = []
  · simp [hs]
  · simp [hs]

def isLineEnd (b : UInt8) : Bool := [byte '\r', byte '\n'].contains b

/-- What `%[^\r\n]` stores of the bytes behind a colon. -/
def fieldValue (after : Bytes) : Bytes := (trimmed after).takeWhile fun b => !isLineEnd b

theorem fieldValue_eq_nil (after : Bytes) : fieldValue after = [] ↔ Blank after := by
  unfold fieldValue Blank trimmed
  cases htrim : after.dropWhile isSpace with
  | nil => simp
  | cons b rest =>
    have hblank : isSpace b = false := by
      have hhead := List.head_dropWhile_not (l := after) isSpace (by rw [htrim]; exact List.cons_ne_nil _ _)
      simpa [htrim] using hhead
    have hline : isLineEnd b = false := by
      rw [← Bool.not_eq_true]
      intro hb
      have hmem : b ∈ [byte '\r', byte '\n'] := List.contains_iff_mem.mp hb
      rcases List.mem_pair.mp hmem with rfl | rfl
      · exact absurd hblank (by decide)
      · exact absurd hblank (by decide)
    simp [hline]

theorem keyValue_no_colon {s : Bytes} (h : byte ':' ∉ s) (hlen : s.length ≤ maxMsgSize) :
    keyValue s = none := by
  by_cases hnil : s = []
  · subst hnil
    rfl
  · have hscan := sscanf_set_run [.lit (byte ':'), .white, .set [byte '\r', byte '\n'] maxMsgSize]
      [byte ':'] maxMsgSize s [] (fun b hb hmem => h (List.mem_singleton.mp hmem ▸ hb)) hnil hlen (by simp)
    rw [List.append_nil] at hscan
    unfold keyValue
    rw [hscan]
    rfl

theorem keyValue_colon {key after : Bytes} (hkey : byte ':' ∉ key)
    (hlen : (key ++ byte ':' :: after).length ≤ maxMsgSize) :
    keyValue (key ++ byte ':' :: after) =
      if key = [] ∨ Blank after then none else some (key, fieldValue after) := by
  rw [List.length_append, List.length_cons] at hlen
  by_cases hnil : key = []
  · subst hnil
    rw [if_pos (Or.inl rfl)]
    rfl
  · have hvalue : (fieldValue after).length ≤ maxMsgSize := by
      have htake : (fieldValue after).length ≤ (trimmed after).length := (List.takeWhile_prefix _).length_le
      have htrim : (trimmed after).length ≤ after.length := (List.dropWhile_suffix _).length_le
      omega
    have hscan : sscanf [.set [byte ':'] maxMsgSize, .lit (byte ':'), .white,
        .set [byte '\r', byte '\n'] maxMsgSize] (key ++ byte ':' :: after) =
        .text key :: if fieldValue after = [] then [] else [.text (fieldValue after)] := by
      have hrun := sscanf_set_run [.lit (byte ':'), .white, .set [byte '\r', byte '\n'] maxMsgSize]
        [byte ':'] maxMsgSize key (byte ':' :: after)
        (fun b hb hmem => hkey (List.mem_singleton.mp hmem ▸ hb)) hnil (by omega) (by simp)
      have hwhole : ((after.dropWhile isSpace).takeWhile fun b =>
          !([byte '\r', byte '\n'].contains b)).take maxMsgSize = fieldValue after :=
        List.take_of_length_le hvalue
      rw [hrun, sscanf, if_pos rfl, sscanf, sscanf]
      simp only [hwhole, sscanf]
    unfold keyValue
    rw [hscan]
    by_cases hblank : Blank after
    · rw [if_pos ((fieldValue_eq_nil after).mpr hblank), if_pos (Or.inr hblank)]
    · rw [if_neg ((fieldValue_eq_nil after).not.mpr hblank), if_neg (not_or.mpr ⟨hnil, hblank⟩)]

def afterColon (s : Bytes) : Bytes := (s.dropWhile fun b => b != byte ':').tail

/-- The bytes that follow a line in the buffer do not change what is read of it: a
line without a colon finds none with a value there, an empty value finds blanks
only, and a value that the line does not end is ended there. -/
def Harmless (line rest : Bytes) : Prop :=
  if byte ':' ∈ line then
    line.head? = some (byte ':') ∨
      if Blank (afterColon line) then Blank rest
      else (trimmed (afterColon line)).any isLineEnd = true ∨ ∀ b ∈ rest.head?, isLineEnd b = true
  else Blank (afterColon rest)

theorem afterColon_split {key after : Bytes} (hkey : byte ':' ∉ key) :
    afterColon (key ++ byte ':' :: after) = after := by
  unfold afterColon
  rw [dropWhile_append_stop]
  · rfl
  · intro b hb
    have hne : b ≠ byte ':' := fun heq => hkey (heq ▸ hb)
    simpa using hne
  · simp

theorem fieldValue_append (after rest : Bytes) (hafter : ¬Blank after) :
    fieldValue (after ++ rest) = fieldValue after ↔
      (trimmed after).any isLineEnd = true ∨ ∀ b ∈ rest.head?, isLineEnd b = true := by
  have htrim : trimmed (after ++ rest) = trimmed after ++ rest := by
    unfold trimmed
    rw [List.dropWhile_append]
    simp [show after.dropWhile isSpace ≠ [] from hafter]
  unfold fieldValue
  rw [htrim]
  by_cases hend : (trimmed after).any isLineEnd = true
  · have hshort : ((trimmed after).takeWhile fun b => !isLineEnd b).length ≠ (trimmed after).length := by
      intro heq
      have hwhole := (List.takeWhile_prefix (l := trimmed after) fun b => !isLineEnd b).eq_of_length heq
      rw [List.takeWhile_eq_self_iff] at hwhole
      obtain ⟨b, hb, hstop⟩ := List.any_eq_true.mp hend
      have hgo := hwhole b hb
      rw [hstop] at hgo
      cases hgo
    rw [List.takeWhile_append, if_neg hshort]
    simp [hend]
  · have hall : ∀ b ∈ trimmed after, (!isLineEnd b) = true := by simpa using hend
    rw [List.takeWhile_append_of_pos hall, List.takeWhile_eq_self_iff.mpr hall]
    cases rest with
    | nil => simp
    | cons b rest =>
      cases hb : isLineEnd b
      · simp [hb, hend]
      · simp [hb]

theorem keyValue_append_iff {line rest : Bytes} (hne : line ≠ [])
    (hlen : (line ++ rest).length ≤ maxMsgSize) :
    keyValue (line ++ rest) = keyValue line ↔ Harmless line rest := by
  have hline : line.length ≤ maxMsgSize := by
    rw [List.length_append] at hlen
    omega
  unfold Harmless
  by_cases hcolon : byte ':' ∈ line
  · rw [if_pos hcolon]
    obtain ⟨key, after, hsplit, hkey⟩ := List.eq_append_cons_of_mem hcolon
    subst hsplit
    rw [List.append_assoc, List.cons_append] at hlen ⊢
    rw [keyValue_colon hkey hlen, keyValue_colon hkey hline, afterColon_split hkey]
    have hboth := blank_append after rest
    cases key with
    | nil => simp
    | cons b key =>
      have hb : b ≠ byte ':' := fun heq => hkey (heq ▸ List.mem_cons_self ..)
      by_cases hafter : Blank after
      · by_cases hblank : Blank rest
        · simp [hafter, hblank, hboth]
        · simp [hb, hafter, hblank, hboth]
      · have hvalue := fieldValue_append after rest hafter
        simp [hb, hafter, hboth, hvalue]
  · rw [if_neg hcolon, keyValue_no_colon hcolon hline]
    by_cases hrest : byte ':' ∈ rest
    · obtain ⟨key, after, hsplit, hkey⟩ := List.eq_append_cons_of_mem hrest
      subst hsplit
      rw [← List.append_assoc] at hlen ⊢
      have hkey' : byte ':' ∉ line ++ key := fun hmem => (List.mem_append.mp hmem).elim hcolon hkey
      rw [keyValue_colon hkey' hlen, afterColon_split hkey]
      by_cases hblank : Blank after
      · simp [hblank]
      · simp [hblank, hne]
    · have hboth : byte ':' ∉ line ++ rest := fun hmem => (List.mem_append.mp hmem).elim hcolon hrest
      have hnone : afterColon rest = [] := by
        have hall : rest.dropWhile (fun b => b != byte ':') = [] := by
          rw [List.dropWhile_eq_nil_iff]
          intro b hb
          have hother : b ≠ byte ':' := fun heq => hrest (heq ▸ hb)
          simpa using hother
        rw [afterColon, hall]
        rfl
      rw [keyValue_no_colon hboth hlen, hnone]
      simp [Blank]

/-! ### Streams of short lines -/

/-- Every line, its newline included, is shorter than the buffer. -/
def ShortLines (stream : Bytes) : Prop :=
  ∀ line, line <:+: stream → (∀ b ∈ line.dropLast, b ≠ byte '\n') → line.length < maxMsgSize

/-- Lines that are short leave the last byte alone. -/
structure Ended (msgBuf : Bytes) : Prop where
  len : msgBuf.length = maxMsgSize
  last : msgBuf[maxMsgSize - 1]? = some 0

theorem ended_cleared : Ended clearedBuf where
  len := List.length_replicate
  last := by
    unfold clearedBuf
    rw [List.getElem?_replicate, if_pos (by decide)]

theorem Ended.store {msgBuf line : Bytes} (h : Ended msgBuf) (hlen : line.length < maxMsgSize) :
    Ended (storeLine msgBuf line) where
  len := by
    have hbuf := h.len
    unfold storeLine
    rw [List.length_append, List.length_drop]
    omega
  last := by
    unfold storeLine
    rw [List.getElem?_append_right (by omega), List.getElem?_drop,
      show line.length + (maxMsgSize - 1 - line.length) = maxMsgSize - 1 by omega]
    exact h.last

theorem Ended.string {msgBuf : Bytes} (h : Ended msgBuf) : bufString msgBuf = .ok (cString msgBuf) :=
  if_pos (List.mem_of_getElem? h.last)

theorem ShortLines.line {stream : Bytes} (h : ShortLines stream) :
    (lineOf maxMsgSize stream).length < maxMsgSize := by
  refine h _ ?_ (lineOf_dropLast _ _)
  rw [lineOf_eq_take]
  exact (List.take_prefix _ _).isInfix

theorem ShortLines.drop {stream : Bytes} (h : ShortLines stream) (n : ℕ) : ShortLines (stream.drop n) :=
  fun line hline => h line (hline.trans (List.drop_suffix n stream).isInfix)

/-- The line stands alone in the buffer: it holds a NUL itself, or what follows it is
harmless. -/
def StandsAlone (msgBuf line : Bytes) : Prop :=
  (0 : UInt8) ∈ line ∨ Harmless line (cString (msgBuf.drop line.length))

theorem standsAlone_iff {msgBuf line : Bytes} (hbuf : Ended msgBuf) (hne : line ≠ [])
    (hline : line.length < maxMsgSize) :
    keyValue (cString (storeLine msgBuf line)) = keyValue (cString line) ↔ StandsAlone msgBuf line := by
  unfold StandsAlone
  by_cases hnul : (0 : UInt8) ∈ line
  · obtain ⟨text, more, hsplit, htext⟩ := List.eq_append_cons_of_mem hnul
    have hfree : ∀ b ∈ text, b ≠ 0 := fun b hb heq => htext (heq ▸ hb)
    subst hsplit
    unfold storeLine
    rw [List.append_assoc, List.cons_append, cString_append_nul _ _ hfree, cString_append_nul _ _ hfree]
    simp
  · have hfree : ∀ b ∈ line, b ≠ 0 := fun b hb heq => hnul (heq ▸ hb)
    have hstr : cString (storeLine msgBuf line) = line ++ cString (msgBuf.drop line.length) := by
      unfold storeLine cString
      rw [List.takeWhile_append_of_pos fun b hb => by simpa using hfree b hb]
    have hlen : (line ++ cString (msgBuf.drop line.length)).length ≤ maxMsgSize := by
      have hrest : (cString (msgBuf.drop line.length)).length ≤ (msgBuf.drop line.length).length :=
        (List.takeWhile_prefix _).length_le
      have hsize := hbuf.len
      rw [List.length_drop] at hrest
      rw [List.length_append]
      omega
    rw [hstr, cString_of_no_nul line hfree, keyValue_append_iff hne hlen]
    simp [hnul]

/-- Every line that is scanned stands alone behind the lines before it. `msgBuf` is
what they have left; a line that is no pair is the last one. -/
def LinesApart : ℕ → Bytes → Bytes → Prop
  | 0, _, _ => True
  | left + 1, msgBuf, stream =>
    let line := lineOf maxMsgSize stream
    line = [] ∨ line = [byte '\r', byte '\n'] ∨
      StandsAlone msgBuf line ∧ (keyValue (cString line) ≠ none →
        LinesApart left (storeLine msgBuf line) (stream.drop line.length))

section
variable {σ ρ : Type} (parse : σ → Bytes → Bytes → Except ρ σ)

theorem bufferLoop_last {clears : Bool} {left : ℕ} {r q : SockBufRead} {msgBuf line : Bytes} {ctx : σ}
    (hread : sockReadline maxMsgSize r = .ok (line, q))
    (hlast : line = [] ∨ line = [byte '\r', byte '\n']) :
    bufferLoop parse clears left r msgBuf ctx =
      if line = [] then .ok (.closed ctx) else .ok (.accepted ctx q) := by
  rw [bufferLoop.eq_def, hread]
  dsimp only
  by_cases hne : line = []
  · rw [if_pos hne, if_pos hne]
  · rw [if_neg hne, if_neg hne, if_pos (hlast.resolve_left hne)]

theorem bufferLoop_full {clears : Bool} {r q : SockBufRead} {msgBuf line : Bytes} {ctx : σ}
    (hread : sockReadline maxMsgSize r = .ok (line, q)) (hne : line ≠ [])
    (hend : line ≠ [byte '\r', byte '\n']) :
    bufferLoop parse clears 0 r msgBuf ctx = .ok (.tooMany ctx) := by
  rw [bufferLoop.eq_def, hread]
  dsimp only
  rw [if_neg hne, if_neg hend]

theorem managerLoop_apart {left : ℕ} {r : SockBufRead} {msgBuf stream : Bytes} {ctx : σ}
    (hr : Delivers r stream) (hshort : ShortLines stream) (hbuf : Ended msgBuf)
    (h : LinesApart left msgBuf stream) :
    managerLoop parse left r msgBuf ctx = headerLoop parse left r ctx := by
  rw [← bufferLoop_cleared]
  unfold managerLoop
  induction left generalizing r msgBuf stream ctx with
  | zero =>
    obtain ⟨q, hread, hdel⟩ := sockReadline_delivers hr maxMsgSize
    by_cases hlast : lineOf maxMsgSize stream = [] ∨ lineOf maxMsgSize stream = [byte '\r', byte '\n']
    · rw [bufferLoop_last parse hread hlast, bufferLoop_last parse hread hlast]
    · obtain ⟨hne, hend⟩ := not_or.mp hlast
      rw [bufferLoop_full parse hread hne hend, bufferLoop_full parse hread hne hend]
  | succ left ih =>
    obtain ⟨q, hread, hdel⟩ := sockReadline_delivers hr maxMsgSize
    by_cases hlast : lineOf maxMsgSize stream = [] ∨ lineOf maxMsgSize stream = [byte '\r', byte '\n']
    · rw [bufferLoop_last parse hread hlast, bufferLoop_last parse hread hlast]
    · obtain ⟨hne, hend⟩ := not_or.mp hlast
      have hlen := hshort.line
      obtain ⟨halone, hrest⟩ := (h.resolve_left hne).resolve_left hend
      have hsame := (standsAlone_iff hbuf hne hlen).mpr halone
      rw [bufferLoop_turn parse hread hne hend (hbuf.store hlen).string,
        bufferLoop_turn parse hread hne hend (ended_cleared.store hlen).string, hsame,
        cString_cleared]
      cases hpair : keyValue (cString (lineOf maxMsgSize stream)) with
      | none => rfl
      | some pair =>
        dsimp only
        cases parse ctx pair.1 pair.2 with
        | error why => rfl
        | ok ctx' =>
          exact ih hdel (hshort.drop _) (hbuf.store hlen) (hrest (by rw [hpair]; exact Option.some_ne_none _))

end

/-! ### The pairs that are read -/

def HeaderEnd.ctx {σ ρ : Type} : HeaderEnd σ ρ → σ
  | .accepted ctx _ => ctx
  | .closed ctx => ctx
  | .tooMany ctx => ctx
  | .malformed ctx => ctx
  | .refused ctx _ => ctx

theorem bufferLoop_last_extends {clears : Bool} {left : ℕ} {r q : SockBufRead} {msgBuf line : Bytes}
    {pairs : List (Bytes × Bytes)} (hread : sockReadline maxMsgSize r = .ok (line, q))
    (hlast : line = [] ∨ line = [byte '\r', byte '\n']) :
    ∃ e, bufferLoop notePair clears left r msgBuf pairs = .ok e ∧ pairs <+: e.ctx := by
  rw [bufferLoop_last notePair hread hlast]
  split
  · exact ⟨_, rfl, List.prefix_rfl⟩
  · exact ⟨_, rfl, List.prefix_rfl⟩

theorem Ended.next {msgBuf : Bytes} (h : Ended msgBuf) (clears : Bool) :
    Ended (if clears then clearedBuf else msgBuf) := by
  split
  · exact ended_cleared
  · exact h

theorem bufferLoop_extends (clears : Bool) (pairs : List (Bytes × Bytes)) {left : ℕ}
    {r : SockBufRead} {msgBuf stream : Bytes} (hr : Delivers r stream) (hshort : ShortLines stream)
    (hbuf : Ended msgBuf) :
    ∃ e, bufferLoop notePair clears left r msgBuf pairs = .ok e ∧ pairs <+: e.ctx := by
  induction left generalizing r msgBuf stream pairs with
  | zero =>
    obtain ⟨q, hread, hdel⟩ := sockReadline_delivers hr maxMsgSize
    by_cases hlast : lineOf maxMsgSize stream = [] ∨ lineOf maxMsgSize stream = [byte '\r', byte '\n']
    · exact bufferLoop_last_extends hread hlast
    · obtain ⟨hne, hend⟩ := not_or.mp hlast
      rw [bufferLoop_full notePair hread hne hend]
      exact ⟨_, rfl, List.prefix_rfl⟩
  | succ left ih =>
    obtain ⟨q, hread, hdel⟩ := sockReadline_delivers hr maxMsgSize
    by_cases hlast : lineOf maxMsgSize stream = [] ∨ lineOf maxMsgSize stream = [byte '\r', byte '\n']
    · exact bufferLoop_last_extends hread hlast
    · obtain ⟨hne, hend⟩ := not_or.mp hlast
      have hstore := hbuf.store hshort.line
      rw [bufferLoop_turn notePair hread hne hend hstore.string]
      cases keyValue (cString (storeLine msgBuf (lineOf maxMsgSize stream))) with
      | none => exact ⟨_, rfl, List.prefix_rfl⟩
      | some pair =>
        obtain ⟨e, he, hpre⟩ := ih (pairs ++ [pair]) hdel (hshort.drop _) (hstore.next clears)
        exact ⟨e, he, (List.prefix_append pairs [pair]).trans hpre⟩

theorem bufferLoop_pair {clears : Bool} {left : ℕ} {r q : SockBufRead} {msgBuf line stream : Bytes}
    {pairs : List (Bytes × Bytes)} (hread : sockReadline maxMsgSize r = .ok (line, q))
    (hdel : Delivers q stream) (hshort : ShortLines stream) (hbuf : Ended msgBuf)
    (hne : line ≠ []) (hend : line ≠ [byte '\r', byte '\n']) (hlen : line.length < maxMsgSize) :
    ∃ e, bufferLoop notePair clears (left + 1) r msgBuf pairs = .ok e ∧
      e.ctx[pairs.length]? = keyValue (cString (storeLine msgBuf line)) := by
  have hstore := hbuf.store hlen
  rw [bufferLoop_turn notePair hread hne hend hstore.string]
  cases keyValue (cString (storeLine msgBuf line)) with
  | none =>
    refine ⟨_, rfl, ?_⟩
    show pairs[pairs.length]? = none
    simp
  | some pair =>
    obtain ⟨e, he, more, hpre⟩ :=
      bufferLoop_extends clears (pairs ++ [pair]) hdel hshort (hstore.next clears)
    refine ⟨e, he, ?_⟩
    rw [← hpre]
    simp

/-- The manager takes from a stream the pairs that a server and a factory take, and
ends as they do. -/
def JudgedAlone (reads : List ReadResult) : Prop :=
  managerLoop notePair maxReqFields (initBufFd reads) clearedBuf [] =
    headerLoop notePair maxReqFields (initBufFd reads) []

theorem linesApart_of_same {left : ℕ} {r : SockBufRead} {msgBuf stream : Bytes}
    {pairs : List (Bytes × Bytes)} (hr : Delivers r stream) (hshort : ShortLines stream)
    (hbuf : Ended msgBuf)
    (h : managerLoop notePair left r msgBuf pairs = headerLoop notePair left r pairs) :
    LinesApart left msgBuf stream := by
  rw [← bufferLoop_cleared] at h
  unfold managerLoop at h
  induction left generalizing r msgBuf stream pairs with
  | zero => trivial
  | succ left ih =>
    obtain ⟨q, hread, hdel⟩ := sockReadline_delivers hr maxMsgSize
    by_cases hne : lineOf maxMsgSize stream = []
    · exact Or.inl hne
    by_cases hend : lineOf maxMsgSize stream = [byte '\r', byte '\n']
    · exact Or.inr (Or.inl hend)
    have hlen := hshort.line
    have hsame : keyValue (cString (storeLine msgBuf (lineOf maxMsgSize stream))) =
        keyValue (cString (lineOf maxMsgSize stream)) := by
      obtain ⟨e, he, hpair⟩ := bufferLoop_pair hread hdel (hshort.drop _) hbuf hne hend hlen
      obtain ⟨e', he', hpair'⟩ := bufferLoop_pair hread hdel (hshort.drop _) ended_cleared hne hend hlen
      rw [he, he'] at h
      cases h
      rw [← hpair, hpair', cString_cleared]
    refine Or.inr (Or.inr ⟨(standsAlone_iff hbuf hne hlen).mp hsame, fun hpair => ?_⟩)
    obtain ⟨pair, hsome⟩ := Option.ne_none_iff_exists'.mp hpair
    rw [bufferLoop_turn notePair hread hne hend (hbuf.store hlen).string,
      bufferLoop_turn notePair hread hne hend (ended_cleared.store hlen).string, hsame,
      cString_cleared, hsome] at h
    exact ih hdel (hshort.drop _) (hbuf.store hlen) h

theorem lineOf_ended {n : ℕ} {stream : Bytes} (h : (lineOf n stream).length < n) :
    (lineOf n stream).getLast? = some (byte '\n') ∨ stream.drop (lineOf n stream).length = [] := by
  induction n generalizing stream with
  | zero => exact absurd h (Nat.not_lt_zero _)
  | succ n ih =>
    cases stream with
    | nil => exact Or.inr rfl
    | cons c stream =>
      rw [lineOf] at h ⊢
      by_cases hc : c = byte '\n'
      · rw [if_pos hc]
        exact Or.inl (by simp [hc])
      · rw [if_neg hc] at h ⊢
        rw [List.length_cons] at h
        rcases ih (Nat.lt_of_succ_lt_succ h) with hlast | hdrop
        · refine Or.inl ?_
          rw [List.getLast?_cons, hlast]
          rfl
        · exact Or.inr hdrop

/-- A pair on a line with its newline is read from the line whatever follows it. -/
theorem standsAlone_of_pair {msgBuf line : Bytes} (hlen : line.length ≤ maxMsgSize)
    (hpair : keyValue (cString line) ≠ none) (hend : line.getLast? = some (byte '\n')) :
    StandsAlone msgBuf line := by
  by_cases hnul : (0 : UInt8) ∈ line
  · exact Or.inl hnul
  refine Or.inr ?_
  rw [cString_of_no_nul line fun b hb heq => hnul (heq ▸ hb)] at hpair
  have hcolon : byte ':' ∈ line := by
    by_contra hno
    exact hpair (keyValue_no_colon hno hlen)
  obtain ⟨key, after, rfl, hkey⟩ := List.eq_append_cons_of_mem hcolon
  have hafter : ¬Blank after := by
    intro hblank
    rw [keyValue_colon hkey hlen, if_pos (Or.inr hblank)] at hpair
    exact hpair rfl
  unfold Harmless
  rw [if_pos hcolon, afterColon_split hkey, if_neg hafter]
  refine Or.inr (Or.inl (List.any_eq_true.mpr ⟨byte '\n', ?_, by decide⟩))
  have hne : trimmed after ≠ [] := hafter
  obtain ⟨front, hfront⟩ : trimmed after <:+ after := List.dropWhile_suffix isSpace
  have hlast : (trimmed after).getLast? = some (byte '\n') := by
    rw [← hfront, ← List.cons_append, ← List.append_assoc, List.getLast?_append_of_ne_nil _ hne] at hend
    exact hend
  exact List.mem_of_getLast? hlast

/-- On every stream that a server accepts the manager reads the same. -/
theorem linesApart_of_accepted {left : ℕ} {r rest : SockBufRead} {msgBuf stream : Bytes}
    {pairs got : List (Bytes × Bytes)} (hr : Delivers r stream) (hshort : ShortLines stream)
    (h : headerLoop notePair left r pairs = .ok (.accepted got rest)) :
    LinesApart left msgBuf stream := by
  induction left generalizing r msgBuf stream pairs with
  | zero => trivial
  | succ left ih =>
    obtain ⟨line, q, hread, hne, hturn⟩ := headerLoop_accepted notePair h
    obtain ⟨q', hread', hdel⟩ := sockReadline_delivers hr maxMsgSize
    rw [hread] at hread'
    cases hread'
    rcases hturn with ⟨hend, -, -⟩ | ⟨hend, n, key, value, ctx, hn, -, hpair, -, hrest⟩
    · exact Or.inr (Or.inl hend)
    · cases hn
      have hlen := hshort.line
      have hsome : keyValue (cString (lineOf maxMsgSize stream)) ≠ none := by
        rw [hpair]
        exact Option.some_ne_none _
      refine Or.inr (Or.inr ⟨standsAlone_of_pair hlen.le hsome ?_, fun _ => ih hdel (hshort.drop _) hrest⟩)
      refine (lineOf_ended hlen).resolve_right fun hnil => ?_
      -- the stream would end behind the line, and the loop with it
      obtain ⟨line', q', hread', hne', -⟩ := headerLoop_accepted notePair hrest
      obtain ⟨q'', hread'', -⟩ := sockReadline_delivers hdel maxMsgSize
      rw [hnil, hread'] at hread''
      cases hread''
      exact hne' (by unfold maxMsgSize; rfl)
/-- The manager judges each line alone exactly on the streams whose lines stand alone
in its buffer. -/
theorem judged_alone_iff {reads : List ReadResult} (hclean : Clean reads)
    (hshort : ShortLines (content reads)) :
    JudgedAlone reads ↔ LinesApart maxReqFields clearedBuf (content reads) :=
  ⟨linesApart_of_same (delivers_init hclean) hshort ended_cleared,
    managerLoop_apart notePair (delivers_init hclean) hshort ended_cleared⟩

theorem shortLines_of_length {stream : Bytes} (h : stream.length < maxMsgSize) : ShortLines stream :=
  fun _ hline _ => lt_of_le_of_lt hline.length_le h

def oneRead (stream : Bytes) : List ReadResult := [.data stream]

theorem judged_alone_iff_report :
    JudgedAlone (oneRead (ascii "Replica ID: 1\r\n\r\n")) ↔
      LinesApart maxReqFields clearedBuf (content (oneRead (ascii "Replica ID: 1\r\n\r\n"))) :=
  judged_alone_iff (by unfold Clean oneRead; decide +kernel)
    (shortLines_of_length (by decide +kernel))

/-- A field without a value, behind a longer line. -/
def staleValue : Bytes := ascii "Server state: 2\r\nReplica ID:\r\n\r\n"

/-- The manager gives the replica the state of the server. -/
theorem stale_value_taken :
    ¬∀ reads, Clean reads → ShortLines (content reads) → JudgedAlone reads := by
  intro h
  have hsame := h (oneRead staleValue) (by unfold Clean oneRead; decide +kernel)
    (shortLines_of_length (by decide +kernel))
  have hmanager : ((managerLoop notePair maxReqFields (initBufFd (oneRead staleValue)) clearedBuf
      []).toOption.map HeaderEnd.ctx) =
      some [(ascii "Server state", ascii "2"), (ascii "Replica ID", ascii "2")] := by decide +kernel
  have hserver : ((headerLoop notePair maxReqFields (initBufFd (oneRead staleValue))
      []).toOption.map HeaderEnd.ctx) = some [(ascii "Server state", ascii "2")] := by decide +kernel
  rw [hsame, hserver] at hmanager
  exact absurd hmanager (by decide +kernel)

end ToDoList
