import ToDoList.TableInv

/-!
# Checkpoint files: export followed by import

`export_db_internal` writes five lines for each node and a closing `FILE_END`;
`import_db_internal` reads the file back in `fgets` chunks of 1023 bytes, so a
data line with more than 1015 bytes of text is read as two lines. A node of at
most 1017 bytes of text without line break, NUL and leading white space comes
back with its key, bytes and length, behind the nodes already in its bucket;
its status is what the new block happens to hold.
-/

namespace ToDoList
open CLib

/-- No CR, LF or NUL, and no white space in front. -/
def CleanText (s : Bytes) : Prop :=
  (∀ b ∈ s, b ≠ byte '\r' ∧ b ≠ byte '\n' ∧ b ≠ 0) ∧ ∀ b ∈ s.head?, isSpace b = false

instance (s : Bytes) : Decidable (CleanText s) :=
  inferInstanceAs (Decidable ((∀ b ∈ s, b ≠ byte '\r' ∧ b ≠ byte '\n' ∧ b ≠ 0) ∧
    ∀ b ∈ s.head?, isSpace b = false))

def view (d : DataPoint) : UInt64 × Entry := (d.key, entry d)

/-- A node that survives the format. -/
structure Exportable (d : DataPoint) : Prop where
  key_ne : d.key ≠ 0
  tail : ZeroTail d
  len : d.dataLen.toNat ≤ 1015
  text : CleanText (entry d).1

/-! ### The lines of a node -/

def keyLine (d : DataPoint) : Bytes := ascii "Key: " ++ decimal d.key.toNat ++ ascii "\r\n"

def dataLine (s : Bytes) : Bytes := ascii "Data: " ++ s ++ ascii "\r\n"

def lenLine (d : DataPoint) : Bytes := ascii "data_len: " ++ decimal d.dataLen.toNat ++ ascii "\r\n"

def statusLine (env : Env) (d : DataPoint) : Bytes :=
  ascii "Status: " ++ decimalInt (env.statusWord d.taskStatus).toInt ++ ascii "\r\n"

def entryLines (env : Env) (d : DataPoint) : List Bytes :=
  [keyLine d, dataLine (entry d).1, lenLine d, statusLine env d, ascii "DATA_END\r\n"]

/-- What the wire parser leaves in a node: a clean text of `data_len` bytes
with a NUL behind it. -/
structure Stored (d : DataPoint) : Prop where
  stop : d.rawData.toList[d.dataLen.toNat]? = some 0
  text : CleanText (entry d).1

theorem Stored.len_lt {d : DataPoint} (h : Stored d) : d.dataLen.toNat < maxDataLen := by
  obtain ⟨hlt, -⟩ := List.getElem?_eq_some_iff.mp h.stop
  rwa [List.Vector.toList_length] at hlt

theorem Stored.length {d : DataPoint} (h : Stored d) : (entry d).1.length = d.dataLen.toNat := by
  have hl : d.rawData.toList.length = maxDataLen := d.rawData.toList_length
  have hlt := h.len_lt
  simp only [entry, List.length_take]
  omega

theorem Exportable.stored {d : DataPoint} (h : Exportable d) : Stored d where
  stop := by
    have hlen := h.len
    have hdrop : d.rawData.toList[d.dataLen.toNat]? = (d.rawData.toList.drop d.dataLen.toNat)[0]? := by
      rw [List.getElem?_drop, Nat.add_zero]
    rw [hdrop, h.tail.2, List.getElem?_replicate, if_pos (by unfold maxDataLen; omega)]
  text := h.text

theorem rawString_eq (d : DataPoint) (h : Stored d) : rawString d = .ok (entry d).1 := by
  obtain ⟨hlt, hget⟩ := List.getElem?_eq_some_iff.mp h.stop
  have hraw : d.rawData.toList = (entry d).1 ++ 0 :: d.rawData.toList.drop (d.dataLen.toNat + 1) := by
    rw [← hget, List.getElem_cons_drop]
    exact (List.take_append_drop ..).symm
  have hmem : (0 : UInt8) ∈ d.rawData.toList := List.mem_of_getElem? h.stop
  have hstr : cString d.rawData.toList = (entry d).1 := by
    rw [hraw]
    exact cString_append_nul _ _ fun b hb => (h.text.1 b hb).2.2
  rw [rawString, if_pos hmem, hstr]

theorem exportEntry_eq (env : Env) (d : DataPoint) (h : Stored d) :
    exportEntry env d = .ok (entryLines env d).flatten := by
  rw [exportEntry, rawString_eq d h]
  simp only [entryLines, keyLine, dataLine, lenLine, statusLine, List.flatten_cons,
    List.flatten_nil, List.append_nil, List.append_assoc]

/-! ### Reading the lines back -/

theorem fgetsLines_crlf (body rest : Bytes) (hnl : ∀ b ∈ body, b ≠ byte '\n')
    (hlen : body.length ≤ 1021) :
    fgetsLines 1024 [] (body ++ ascii "\r\n" ++ rest) =
      (body ++ ascii "\r\n") :: fgetsLines 1024 [] rest := by
  have hsplit : body ++ ascii "\r\n" ++ rest = (body ++ [byte '\r']) ++ byte '\n' :: rest := by
    simp [crlf_eq]
  have hcr : ∀ b ∈ body ++ [byte '\r'], b ≠ byte '\n' := by
    intro b hb
    rcases List.mem_append.mp hb with hb | hb
    · exact hnl b hb
    · rw [List.mem_singleton.mp hb]
      decide
  rw [hsplit, fgetsLines_line 1024 _ rest hcr (by simp; omega)]
  simp [crlf_eq]

theorem digit_ne_newline (b : UInt8) (h : isDigit b = true) : b ≠ byte '\n' :=
  isDigit_ne b _ h (by decide)

theorem decimalInt_mem (z : ℤ) (b : UInt8) (hb : b ∈ decimalInt z) :
    b = byte '-' ∨ isDigit b = true := by
  unfold decimalInt at hb
  split at hb
  · rcases List.mem_cons.mp hb with rfl | hb
    · exact Or.inl rfl
    · exact Or.inr (decimal_isDigit _ b hb)
  · exact Or.inr (decimal_isDigit _ b hb)

theorem decimalInt_length (w : BitVec 32) : (decimalInt w.toInt).length ≤ 11 := by
  have h1 := BitVec.le_toInt w
  have h2 := BitVec.toInt_lt (x := w)
  have hd : (decimal w.toInt.natAbs).length ≤ 10 := by
    apply decimal_length_le _ _ (by decide)
    omega
  unfold decimalInt
  split
  · rw [List.length_cons]
    omega
  · omega

def labels : List String := ["Key: ", "Data: ", "data_len: ", "Status: "]

theorem format_bytes : (∀ p ∈ labels, ∀ b ∈ ascii p, b ≠ byte '\n' ∧ b ≠ 0) ∧
    (∀ b ∈ ascii "DATA_END", b ≠ byte '\n') ∧ (ascii "DATA_END").length ≤ 1021 := by decide +kernel

theorem fgetsLines_label {p : String} (hp : p ∈ labels) (body rest : Bytes)
    (hnl : ∀ b ∈ body, b ≠ byte '\n') (hlen : (ascii p).length + body.length ≤ 1021) :
    fgetsLines 1024 [] (ascii p ++ body ++ ascii "\r\n" ++ rest) =
      (ascii p ++ body ++ ascii "\r\n") :: fgetsLines 1024 [] rest := by
  refine fgetsLines_crlf _ rest ?_ (by rw [List.length_append]; exact hlen)
  intro b hb
  rcases List.mem_append.mp hb with hb | hb
  · exact (format_bytes.1 p hp b hb).1
  · exact hnl b hb

/-- What `fgets` returns for a data line. -/
def dataChunks (s : Bytes) : List Bytes :=
  if s.length ≤ 1015 then [dataLine s]
  else [ascii "Data: " ++ (s ++ [byte '\r']).take 1017, (s ++ [byte '\r']).drop 1017 ++ [byte '\n']]

theorem CleanText.ne_newline {s : Bytes} (hs : CleanText s) : ∀ b ∈ s ++ [byte '\r'], b ≠ byte '\n' := by
  intro b hb
  rcases List.mem_append.mp hb with hb | hb
  · exact (hs.1 b hb).2.1
  · rw [List.mem_singleton.mp hb]
    decide

theorem fgetsLines_data (s rest : Bytes) (hs : CleanText s) (hlen : s.length ≤ 1023) :
    fgetsLines 1024 [] (dataLine s ++ rest) = dataChunks s ++ fgetsLines 1024 [] rest := by
  have hlabel : (ascii "Data: ").length = 6 := rfl
  unfold dataChunks
  split
  · rename_i hshort
    exact fgetsLines_label (by simp [labels]) s rest (fun b hb => (hs.1 b hb).2.1) (by omega)
  · rename_i hlong
    have hline : dataLine s ++ rest = (ascii "Data: " ++ (s ++ [byte '\r']).take 1017) ++
        ((s ++ [byte '\r']).drop 1017 ++ byte '\n' :: rest) := by
      have hsplit : (s ++ [byte '\r']).take 1017 ++ ((s ++ [byte '\r']).drop 1017 ++ byte '\n' :: rest) =
          s ++ [byte '\r'] ++ byte '\n' :: rest := by
        rw [← List.append_assoc, List.take_append_drop]
      rw [List.append_assoc, hsplit]
      simp [dataLine, crlf_eq]
    have hfirst : ∀ b ∈ ascii "Data: " ++ (s ++ [byte '\r']).take 1017, b ≠ byte '\n' := by
      intro b hb
      rcases List.mem_append.mp hb with hb | hb
      · exact (format_bytes.1 "Data: " (by simp [labels]) b hb).1
      · exact hs.ne_newline b (List.mem_of_mem_take hb)
    rw [hline, fgetsLines_full 1024 _ _ hfirst (by simp [ascii]) (by simp [hlabel]; omega),
      fgetsLines_line 1024 _ _ (fun b hb => hs.ne_newline b (List.mem_of_mem_drop hb))
        (by simp; omega)]
    rfl

def entryChunks (env : Env) (d : DataPoint) : List Bytes :=
  keyLine d :: dataChunks (entry d).1 ++ [lenLine d, statusLine env d, ascii "DATA_END\r\n"]

theorem fgetsLines_entry (env : Env) (d : DataPoint) (h : Stored d) (rest : Bytes) :
    fgetsLines 1024 [] ((entryLines env d).flatten ++ rest) =
      entryChunks env d ++ fgetsLines 1024 [] rest := by
  have hlen := h.len_lt
  have htext := h.length
  have hdigits : ∀ n, ∀ b ∈ decimal n, b ≠ byte '\n' :=
    fun n b hb => digit_ne_newline b (decimal_isDigit n b hb)
  have hst : ∀ b ∈ decimalInt (env.statusWord d.taskStatus).toInt, b ≠ byte '\n' := by
    intro b hb
    rcases decimalInt_mem _ b hb with rfl | hb
    · decide
    · exact digit_ne_newline b hb
  have l1 := decimal_toNat_length d.key
  have l2 := decimal_toNat_length d.dataLen
  have l3 := decimalInt_length (env.statusWord d.taskStatus)
  have a1 : (ascii "Key: ").length = 5 := rfl
  have a3 : (ascii "data_len: ").length = 10 := rfl
  have a4 : (ascii "Status: ").length = 8 := rfl
  have hsplit : ascii "DATA_END\r\n" = ascii "DATA_END" ++ ascii "\r\n" := rfl
  simp only [entryLines, entryChunks, List.flatten_cons, List.flatten_nil, List.append_nil,
    List.append_assoc, List.cons_append, List.nil_append]
  unfold maxDataLen at hlen
  rw [keyLine, lenLine, statusLine, hsplit]
  rw [fgetsLines_label (by simp [labels]) _ _ (hdigits _) (by omega),
    fgetsLines_data _ _ h.text (by omega),
    fgetsLines_label (by simp [labels]) _ _ (hdigits _) (by omega),
    fgetsLines_label (by simp [labels]) _ _ hst (by omega),
    fgetsLines_crlf _ _ format_bytes.2.1 format_bytes.2.2]

/-! ### One node through the import loop -/

theorem cString_line {p : String} (hp : p ∈ labels) (body : Bytes) (hb : ∀ b ∈ body, b ≠ 0) :
    cString (ascii p ++ body ++ ascii "\r\n") = ascii p ++ body ++ ascii "\r\n" := by
  apply cString_of_no_nul
  intro b hm
  rcases List.mem_append.mp hm with hm | hm
  · rcases List.mem_append.mp hm with hm | hm
    · exact (format_bytes.1 p hp b hm).2
    · exact hb b hm
  · exact crlf_no_nul b hm

theorem decimal_ne_nul (n : ℕ) : ∀ b ∈ decimal n, b ≠ 0 := fun b hb =>
  isDigit_ne b 0 (decimal_isDigit n b hb) (by decide)

theorem decimal_head_not_space (n : ℕ) (rest : Bytes) :
    ∀ b ∈ (decimal n ++ rest).head?, isSpace b = false := by
  obtain ⟨d, ds, hds⟩ := List.exists_cons_of_ne_nil (decimal_ne_nil n)
  intro b hb
  have hd : d = b := by simpa [hds] using hb
  apply isDigit_not_isSpace
  apply decimal_isDigit n
  rw [hds, ← hd]
  exact List.mem_cons_self ..

theorem importField_keyLine (d : DataPoint) (st : ImportState) :
    importField (keyLine d) st = { st with temp1 := decimal d.key.toNat } := by
  have hscan : sscanf (lits "Key:" ++ [.white, .str]) (keyLine d) = [.text (decimal d.key.toNat)] := by
    have hline : keyLine d =
        ascii "Key:" ++ byte ' ' :: (decimal d.key.toNat ++ ascii "\r\n") := rfl
    rw [hline, lits, sscanf_lits, sscanf_white_blank _ _ (decimal_head_not_space _ _),
      sscanf_str_word _ _ _ (fun b hb => isDigit_not_isSpace b (decimal_isDigit _ b hb))
        (decimal_ne_nil _) fun b hb => (crlf_first b hb).1]
    rfl
  have h1 : startsWith (keyLine d) "Key" = true := rfl
  have h2 : startsWith (keyLine d) "Data" = false := rfl
  have h3 : startsWith (keyLine d) "data_len" = false := rfl
  unfold importField
  simp only [h1, h2, h3, hscan, storedText, if_true, Option.getD_some,
    Bool.false_eq_true, if_false]

/-- What a `Data` line leaves in the buffer: all of it up to the newline, the
CR with it. -/
theorem importField_data (u rest : Bytes) (hne : u ≠ []) (hhead : ∀ b ∈ u.head?, isSpace b = false)
    (hno : ∀ b ∈ u, b ≠ byte '\n') (hlen : u.length ≤ 8191) (hr : rest = [] ∨ rest = [byte '\n'])
    (st : ImportState) :
    importField (ascii "Data: " ++ u ++ rest) st = { st with data := strncpy 1024 u } := by
  have h1 : startsWith (ascii "Data: " ++ u ++ rest) "Key" = false := rfl
  have h2 : startsWith (ascii "Data: " ++ u ++ rest) "Data" = true := rfl
  have h3 : startsWith (ascii "Data: " ++ u ++ rest) "data_len" = false := rfl
  have hline : ascii "Data: " ++ u ++ rest = ascii "Data:" ++ byte ' ' :: (u ++ rest) := rfl
  have hfirst : ∀ b ∈ (u ++ rest).head?, isSpace b = false := by
    obtain ⟨a, t, rfl⟩ := List.exists_cons_of_ne_nil hne
    simpa using hhead
  have hstop : ∀ b ∈ rest.head?, b = byte '\n' := by
    rcases hr with rfl | rfl
    · simp
    · simp
  have hskip : sscanf [.skipChar] rest = [] := by
    rcases hr with rfl | rfl
    · rfl
    · rfl
  have hscan : sscanf (lits "Data:" ++ [.white, .set [byte '\n'] 8191, .skipChar])
      (ascii "Data: " ++ u ++ rest) = [.text u] := by
    rw [hline, lits, sscanf_lits, sscanf_white_blank _ _ hfirst,
      sscanf_set_word _ _ _ _ _ hno hne hlen hstop, hskip]
  unfold importField
  simp only [h1, h2, h3, hscan, storedText, if_true, Option.getD_some,
    Bool.false_eq_true, if_false]

theorem importField_blank (st : ImportState) :
    importField (dataLine []) st = { st with data := zeros 1024 } := by
  have hscan : sscanf (lits "Data:" ++ [.white, .set [byte '\n'] 8191, .skipChar]) (dataLine []) =
      [] := rfl
  have h1 : startsWith (dataLine []) "Key" = false := rfl
  have h2 : startsWith (dataLine []) "Data" = true := rfl
  have h3 : startsWith (dataLine []) "data_len" = false := rfl
  unfold importField
  simp only [h1, h2, h3, hscan, storedText, if_true, Option.getD_none,
    Bool.false_eq_true, if_false, zeros_eq_strncpy]

theorem importField_lenLine (d : DataPoint) (st : ImportState) :
    importField (lenLine d) st = { st with len := d.dataLen } := by
  have hscan : sscanf (lits "data_len:" ++ [.white, .ulong]) (lenLine d) = [.num d.dataLen] := by
    have hline : lenLine d =
        ascii "data_len:" ++ byte ' ' :: (decimal d.dataLen.toNat ++ ascii "\r\n") := rfl
    rw [hline, lits, sscanf_lits, sscanf_white_blank _ _ (decimal_head_not_space _ _),
      sscanf_ulong_decimal _ _ d.dataLen.toNat_lt _ fun b hb => (crlf_first b hb).2, UInt64.ofNat_toNat]
    rfl
  have h1 : startsWith (lenLine d) "Key" = false := rfl
  have h2 : startsWith (lenLine d) "Data" = false := rfl
  have h3 : startsWith (lenLine d) "data_len" = true := rfl
  unfold importField
  simp only [h1, h2, h3, hscan, storedNum, if_true, Option.getD_some,
    Bool.false_eq_true, if_false]

theorem importField_statusLine (env : Env) (d : DataPoint) (st : ImportState) :
    importField (statusLine env d) st = st := rfl

theorem importLoop_field (env : Env) (line : Bytes) (lines : List Bytes) (st : ImportState)
    (hc : cString line = line) (h1 : startsWith line "DATA_END" = false)
    (h2 : startsWith line "FILE_END" = false) :
    importLoop env (line :: lines) st = importLoop env lines (importField line st) := by
  rw [importLoop, hc, h1, h2]
  simp

theorem crlf_head (s : Bytes) (hne : s ≠ []) (h : CleanText s) (n : ℕ) :
    ∀ b ∈ ((s ++ [byte '\r']).take (n + 1)).head?, isSpace b = false := by
  obtain ⟨a, t, rfl⟩ := List.exists_cons_of_ne_nil hne
  intro b hb
  exact h.2 b (by simpa using hb)

theorem cString_dataLine (s : Bytes) (hs : CleanText s) : cString (dataLine s) = dataLine s :=
  cString_line (by simp [labels]) s fun b hb => (hs.1 b hb).2.2

theorem CleanText.no_nul {s : Bytes} (hs : CleanText s) : ∀ b ∈ s ++ [byte '\r'], b ≠ 0 := by
  intro b hb
  rcases List.mem_append.mp hb with hb | hb
  · exact (hs.1 b hb).2.2
  · rw [List.mem_singleton.mp hb]
    decide

theorem importLoop_firstChunk (env : Env) (s : Bytes) (hs : CleanText s) (hlen : 1015 < s.length)
    (lines : List Bytes) (st : ImportState) :
    importLoop env ((ascii "Data: " ++ (s ++ [byte '\r']).take 1017) :: lines) st =
      importLoop env lines { st with data := strncpy 1024 ((s ++ [byte '\r']).take 1017) } := by
  have hne : s ≠ [] := by
    rintro rfl
    simp at hlen
  have hc : cString (ascii "Data: " ++ (s ++ [byte '\r']).take 1017) =
      ascii "Data: " ++ (s ++ [byte '\r']).take 1017 := by
    apply cString_of_no_nul
    intro b hb
    rcases List.mem_append.mp hb with hb | hb
    · exact (format_bytes.1 "Data: " (by simp [labels]) b hb).2
    · exact hs.no_nul b (List.mem_of_mem_take hb)
  have hfield := importField_data ((s ++ [byte '\r']).take 1017) [] (by simp) (crlf_head s hne hs _)
    (fun b hb => hs.ne_newline b (List.mem_of_mem_take hb)) (by simp) (Or.inl rfl) st
  rw [List.append_nil] at hfield
  rw [importLoop_field env _ _ _ hc rfl rfl, hfield]

/-- Up to 1017 bytes the data line brings the text back, in one line or two. -/
theorem importLoop_dataChunks (env : Env) (s : Bytes) (hs : CleanText s) (hlen : s.length ≤ 1017) :
    ∃ data : CArray 1024, data.toList.take s.length = s ∧ ∀ lines st,
      importLoop env (dataChunks s ++ lines) st = importLoop env lines { st with data := data } := by
  unfold dataChunks
  split
  · rename_i hshort
    by_cases hne : s = []
    · subst hne
      refine ⟨zeros 1024, rfl, fun lines st => ?_⟩
      rw [List.cons_append, List.nil_append,
        importLoop_field env _ _ _ (cString_dataLine [] hs) rfl rfl, importField_blank]
    · have hline : dataLine s = ascii "Data: " ++ (s ++ [byte '\r']) ++ [byte '\n'] := by
        simp [dataLine, crlf_eq]
      have hhead := crlf_head s hne hs s.length
      rw [List.take_of_length_le (by simp)] at hhead
      refine ⟨strncpy 1024 (s ++ [byte '\r']), ?_, fun lines st => ?_⟩
      · rw [toList_strncpy _ _ (by simp; omega), List.append_assoc, List.take_left' rfl]
      · rw [List.cons_append, List.nil_append,
          importLoop_field env _ _ _ (cString_dataLine s hs) rfl rfl, hline,
          importField_data _ _ (by simp) hhead hs.ne_newline (by simp; omega) (Or.inr rfl)]
  · rename_i hlong
    have hlast : (s ++ [byte '\r']).drop 1017 ++ [byte '\n'] = [byte '\n'] ∨
        (s ++ [byte '\r']).drop 1017 ++ [byte '\n'] = [byte '\r', byte '\n'] := by
      by_cases h16 : s.length = 1016
      · left
        rw [List.drop_of_length_le (by simp [h16])]
        rfl
      · right
        rw [List.drop_append, List.drop_of_length_le hlen]
        have h17 : 1017 - s.length = 0 := by omega
        rw [h17]
        rfl
    refine ⟨strncpy 1024 ((s ++ [byte '\r']).take 1017), ?_, fun lines st => ?_⟩
    · rw [toList_strncpy _ _ (by simp), List.take_append_of_le_length (by simp; omega),
        List.take_take, min_eq_left hlen, List.take_left' rfl]
    · rw [List.cons_append, importLoop_firstChunk env s hs (by omega), List.cons_append,
        List.nil_append]
      rcases hlast with h | h
      · rw [h]
        rfl
      · rw [h]
        rfl

theorem cString_statusLine (env : Env) (d : DataPoint) : cString (statusLine env d) = statusLine env d := by
  apply cString_line (by simp [labels])
  intro b hb
  rcases decimalInt_mem _ b hb with rfl | hb
  · decide
  · exact isDigit_ne b 0 hb (by decide)

/-- The lines of a node insert what the data line has left in the buffer, under
the key that is scanned last. -/
theorem importLoop_node (env : Env) (d : DataPoint) (mid lines : List Bytes) (st st₁ : ImportState)
    (hmid : ∀ rest, importLoop env (mid ++ rest) { st with temp1 := decimal d.key.toNat } =
      importLoop env rest st₁) :
    importLoop env (keyLine d :: mid ++ [lenLine d, statusLine env d, ascii "DATA_END\r\n"] ++ lines) st =
      match hashTableInsert env st₁.table (strtoull st₁.temp1) st₁.data.toList d.dataLen with
      | .error f => .error f
      | .ok (_, table) => importLoop env lines ⟨table, st₁.temp1, zeros 1024, 0⟩ := by
  have hk : cString (keyLine d) = keyLine d := cString_line (by simp [labels]) _ (decimal_ne_nul _)
  have hl : cString (lenLine d) = lenLine d := cString_line (by simp [labels]) _ (decimal_ne_nul _)
  rw [List.cons_append, List.cons_append, List.append_assoc,
    importLoop_field env (keyLine d) _ _ hk rfl rfl, importField_keyLine, hmid]
  simp only [List.cons_append, List.nil_append]
  rw [importLoop_field env (lenLine d) _ _ hl rfl rfl, importField_lenLine,
    importLoop_field env (statusLine env d) _ _ (cString_statusLine env d) rfl rfl,
    importField_statusLine, importLoop]
  exact if_pos mark_lines.1

/-- A node of at most 1017 bytes is appended to its bucket with the same view
and the status of the fresh block. -/
theorem importLoop_entry (env : Env) (d : DataPoint) (h : Stored d) (hkey : d.key ≠ 0)
    (hlen : d.dataLen.toNat ≤ 1017) (lines : List Bytes) (st : ImportState) :
    ∃ d' st', importLoop env (entryChunks env d ++ lines) st = importLoop env lines st' ∧
      view d' = view d ∧ d'.taskStatus = (env.fresh st.table.allocs).taskStatus ∧
      st'.table = ⟨Function.update st.table.data (hashFunc d.key)
        (st.table.data (hashFunc d.key) ++ [d']), st.table.dataSize + d.dataLen, st.table.allocs + 1⟩ := by
  have htext := h.length
  obtain ⟨data, htake, hmid⟩ := importLoop_dataChunks env (entry d).1 h.text (by omega)
  have hsize : d.dataLen.toNat ≤ data.toList.length := by
    rw [List.Vector.toList_length]
    omega
  obtain ⟨raw, hraw, hins⟩ := hashTableInsert_ok env st.table d.key data.toList d.dataLen hkey
    (by unfold maxDataLen; omega) hsize
  have hscan : strtoull (decimal d.key.toNat) = d.key := by
    rw [strtoull_decimal _ d.key.toNat_lt, UInt64.ofNat_toNat]
  let d' : DataPoint := ⟨d.key, raw, d.dataLen, (env.fresh st.table.allocs).taskStatus⟩
  have hview : view d' = view d := by
    have hb : raw.toList.take d.dataLen.toNat = (entry d).1 := by
      rw [take_memcpy hraw, ← htext, htake]
    show (d.key, raw.toList.take d.dataLen.toNat, d.dataLen) = (d.key, entry d)
    rw [hb]
    rfl
  let u : HTable := ⟨Function.update st.table.data (hashFunc d.key)
    (st.table.data (hashFunc d.key) ++ [d']), st.table.dataSize + d.dataLen, st.table.allocs + 1⟩
  refine ⟨d', ⟨u, decimal d.key.toNat, zeros 1024, 0⟩, ?_, hview, rfl, rfl⟩
  rw [entryChunks, importLoop_node env d _ lines st _ fun rest => hmid rest _]
  simp only [hscan, hins]
  rfl

/-! ### The whole file -/

theorem exportEntries_lines (env : Env) (ds : List DataPoint) (h : ∀ d ∈ ds, Stored d) :
    ∃ file, exportEntries env ds = .ok file ∧
      fgetsLines 1024 [] file = ds.flatMap (entryChunks env) ++ [ascii "FILE_END\n"] := by
  induction ds with
  | nil => exact ⟨ascii "FILE_END\n", rfl, by rfl⟩
  | cons d ds ih =>
    have hd := h d (List.mem_cons_self ..)
    obtain ⟨rest, hrest, hlines⟩ := ih fun c hc => h c (List.mem_cons_of_mem _ hc)
    refine ⟨(entryLines env d).flatten ++ rest, ?_, ?_⟩
    · rw [exportEntries, exportEntry_eq env d hd]
      simp only [hrest]
    · rw [fgetsLines_entry env d hd, hlines, List.flatMap_cons, List.append_assoc]

def inBucket (b : Fin hashTableLen) (ds : List DataPoint) : List DataPoint :=
  ds.filter fun d => hashFunc d.key = b

/-- Nodes with the statuses of the blocks an import puts them in. -/
def restamp (env : Env) : ℕ → List DataPoint → List DataPoint
  | _, [] => []
  | n, d :: ds => withStatus (env.fresh n).taskStatus d :: restamp env (n + 1) ds

def fullView (d : DataPoint) : (UInt64 × Entry) × TStatus := (view d, d.taskStatus)

theorem restamp_view (env : Env) (n : ℕ) (ds : List DataPoint) (b : Fin hashTableLen) :
    (inBucket b (restamp env n ds)).map view = (inBucket b ds).map view := by
  induction ds generalizing n with
  | nil => rfl
  | cons d ds ih =>
    have hcons : ∀ c cs, inBucket b (c :: cs) = if hashFunc c.key = b then c :: inBucket b cs
        else inBucket b cs := by
      intro c cs
      simp [inBucket, List.filter_cons]
    rw [restamp, hcons, hcons]
    show List.map view (if hashFunc d.key = b then _ else _) = _
    split
    · rw [List.map_cons, List.map_cons, ih]
      rfl
    · exact ih (n + 1)

theorem importLoop_entries (env : Env) (ds : List DataPoint) (hs : ∀ d ∈ ds, Stored d)
    (hkey : ∀ d ∈ ds, d.key ≠ 0) (hlen : ∀ d ∈ ds, d.dataLen.toNat ≤ 1017) (st : ImportState) :
    ∃ st', importLoop env (ds.flatMap (entryChunks env) ++ [ascii "FILE_END\n"]) st = .ok st' ∧
      (∀ b, (st'.table.data b).map fullView = (st.table.data b).map fullView ++
        (inBucket b (restamp env st.table.allocs ds)).map fullView) ∧
      st'.table.dataSize = st.table.dataSize + lenSum ds := by
  induction ds generalizing st with
  | nil =>
    refine ⟨st, rfl, fun b => by simp [inBucket, restamp], ?_⟩
    simp [lenSum]
  | cons d ds ih =>
    rw [List.flatMap_cons, List.append_assoc]
    obtain ⟨d', st₁, hloop, hview, hstatus, htable⟩ := importLoop_entry env d
      (hs d (List.mem_cons_self ..)) (hkey d (List.mem_cons_self ..)) (hlen d (List.mem_cons_self ..))
      (ds.flatMap (entryChunks env) ++ [ascii "FILE_END\n"]) st
    obtain ⟨st', hrest, hbuckets, hsum⟩ := ih (fun c hc => hs c (List.mem_cons_of_mem _ hc))
      (fun c hc => hkey c (List.mem_cons_of_mem _ hc)) (fun c hc => hlen c (List.mem_cons_of_mem _ hc)) st₁
    have hfull : fullView d' = fullView (withStatus (env.fresh st.table.allocs).taskStatus d) := by
      show (view d', d'.taskStatus) = _
      rw [hview, hstatus]
      rfl
    refine ⟨st', by rw [hloop, hrest], ?_, ?_⟩
    · intro b
      rw [hbuckets b, htable]
      dsimp only
      by_cases hb : b = hashFunc d.key
      · subst hb
        simp [inBucket, restamp, hfull, withStatus]
      · rw [Function.update_of_ne hb]
        simp [inBucket, restamp, withStatus, Ne.symm hb]
    · have hcons : lenSum (d :: ds) = d.dataLen + lenSum ds := rfl
      rw [hsum, htable, hcons]
      grind

theorem inBucket_allEntries (t : HTable) (h : AllNodes (fun b d => hashFunc d.key = b) t)
    (b : Fin hashTableLen) : inBucket b (allEntries t) = t.data b := by
  have hone : ∀ c, inBucket b (t.data c) = if c = b then t.data b else [] := by
    intro c
    by_cases hc : c = b
    · subst hc
      rw [if_pos rfl, inBucket, List.filter_eq_self]
      intro d hd
      simpa using h c d hd
    · rw [if_neg hc, inBucket, List.filter_eq_nil_iff]
      intro d hd
      rw [h c d hd]
      simpa using hc
  have hall : ∀ bs : List (Fin hashTableLen), bs.Nodup →
      inBucket b (bs.flatMap t.data) = if b ∈ bs then t.data b else [] := by
    intro bs hbs
    induction bs with
    | nil => rfl
    | cons c bs ih =>
      obtain ⟨hnot, hnd⟩ := List.nodup_cons.mp hbs
      have happ : inBucket b ((c :: bs).flatMap t.data) =
          inBucket b (t.data c) ++ inBucket b (bs.flatMap t.data) := by
        rw [List.flatMap_cons]
        exact List.filter_append ..
      rw [happ, hone, ih hnd]
      by_cases hc : c = b
      · subst hc
        simp [hnot]
      · simp [hc, Ne.symm hc]
  rw [allEntries, hall _ (List.nodup_finRange _), if_pos (List.mem_finRange b)]

/-- The entries a checkpoint can carry: at most 1015 bytes of clean text. -/
def Checkpointable (t : HTable) : Prop :=
  AllNodes (fun _ d => d.dataLen.toNat ≤ 1015 ∧ CleanText (entry d).1) t

/-- Export and import of a table of texts of at most 1017 bytes: every bucket
comes back with its nodes restamped. -/
theorem import_export_short (env : Env) (t : HTable) (hinv : TableInv t)
    (hs : AllNodes (fun _ d => Stored d) t) (hlen : AllNodes (fun _ d => d.dataLen.toNat ≤ 1017) t)
    (t₀ : HTable) :
    ∃ file t', exportDbInternal env t = .ok file ∧ importDbInternal env t₀ (some file) = .ok t' ∧
      (∀ b, (t'.data b).map fullView =
        (inBucket b (restamp env t₀.allocs (allEntries t))).map fullView) ∧
      t'.dataSize = t.dataSize := by
  obtain ⟨file, hfile, hlines⟩ := exportEntries_lines env (allEntries t) hs.mem
  obtain ⟨st, hst, hbuckets, hsize⟩ := importLoop_entries env (allEntries t) hs.mem hinv.key_ne.mem
    hlen.mem { table := hashTableInit t₀.allocs }
  refine ⟨file, st.table, hfile, ?_, hbuckets, ?_⟩
  · rw [importDbInternal, hlines, hst]
  · rw [hsize, hinv.size]
    show 0 + lenSum (allEntries t) = lenSum (allEntries t)
    simp

theorem view_of_fullView {ds es : List DataPoint} (h : ds.map fullView = es.map fullView) :
    ds.map view = es.map view := by
  have hfst := congrArg (List.map Prod.fst) h
  rwa [List.map_map, List.map_map] at hfst

theorem import_export (env : Env) (t : HTable) (hinv : TableInv t)
    (htail : AllNodes (fun _ d => ZeroTail d) t) (hc : Checkpointable t) (t₀ : HTable) :
    ∃ file t', exportDbInternal env t = .ok file ∧ importDbInternal env t₀ (some file) = .ok t' ∧
      (∀ b, (t'.data b).map view = (t.data b).map view) ∧ t'.dataSize = t.dataSize := by
  have hex : ∀ b, ∀ d ∈ t.data b, Exportable d := fun b d hd =>
    ⟨hinv.key_ne b d hd, htail b d hd, (hc b d hd).1, (hc b d hd).2⟩
  have hlen : AllNodes (fun _ d => d.dataLen.toNat ≤ 1017) t := fun b d hd =>
    (hex b d hd).len.trans (by decide)
  obtain ⟨file, t', hfile, himp, hbuckets, hsize⟩ :=
    import_export_short env t hinv (fun b d hd => (hex b d hd).stored) hlen t₀
  refine ⟨file, t', hfile, himp, fun b => ?_, hsize⟩
  rw [view_of_fullView (hbuckets b), restamp_view, inBucket_allEntries t hinv.bucket b]

/-- Checkpoint round trip: a reachable table of clean texts of at most 1015
bytes is rebuilt, whatever table the import starts from. -/
theorem checkpoint_round_trip (env : Env) (hz : env.ZeroHeap) (t : HTable)
    (hr : ReachableTable env t) (hc : Checkpointable t) (t₀ : HTable) :
    ∃ file t', exportDbInternal env t = .ok file ∧ importDbInternal env t₀ (some file) = .ok t' ∧
      (∀ b, (t'.data b).map view = (t.data b).map view) ∧ t'.dataSize = t.dataSize :=
  import_export env t (tableInv_of_reachable env t hr) (zeroTail_of_reachable env hz t hr) hc t₀

/-- SHA-1 of the eight bytes and the five NULs behind them. -/
def milkKey : UInt64 := 5676246244586500998

def milkTable : HTable :=
  insertDataPoint ⟨fun _ => [], 8, 1⟩ (hashFunc milkKey)
    ⟨milkKey, strncpy maxDataLen (ascii "buy milk"), 8, .taskNotDone⟩

/-- A table with one node, the text added by a client on an empty server. -/
def textTable (key : UInt64) (text : Bytes) (status : TStatus) : HTable :=
  insertDataPoint ⟨fun _ => [], .ofNat text.length, 1⟩ (hashFunc key)
    ⟨key, strncpy maxDataLen text, .ofNat text.length, status⟩

theorem textTable_mem {key : UInt64} {text : Bytes} {status : TStatus} {b : Fin hashTableLen}
    {d : DataPoint} (h : d ∈ (textTable key text status).data b) :
    b = hashFunc key ∧ d = ⟨key, strncpy maxDataLen text, .ofNat text.length, status⟩ := by
  by_cases hb : b = hashFunc key
  · subst hb
    exact ⟨rfl, by simpa [textTable, insertDataPoint] using h⟩
  · simp [textTable, insertDataPoint, Function.update_of_ne hb] at h

theorem toNat_ofNat_length {text : Bytes} {n : ℕ} (h : text.length ≤ n) (hn : n < 2 ^ 64) :
    (UInt64.ofNat text.length).toNat = text.length := by
  rw [UInt64.toNat_ofNat']
  exact Nat.mod_eq_of_lt (by omega)

theorem memcpy_strncpy (text : Bytes) (h : text.length ≤ 1024) :
    memcpy (zeros 1024) (strncpy 1024 text).toList text.length = some (strncpy 1024 text) := by
  have hs : text.length ≤ (strncpy 1024 text).toList.length := by
    rw [List.Vector.toList_length]
    exact h
  obtain ⟨out, hout⟩ := memcpy_of_le (zeros 1024) (strncpy 1024 text).toList text.length h hs
  obtain ⟨-, -, hlist⟩ := memcpy_eq_some hout
  rw [hout]
  congr 1
  apply List.Vector.toList_injective
  rw [hlist, toList_strncpy _ _ h, List.take_left' rfl, toList_zeros, List.drop_replicate]

theorem textTable_reachable (key : UInt64) (text : Bytes) (hkey : key ≠ 0)
    (hlen : text.length ≤ 1019) :
    ReachableTable (zeroEnv fun _ => some key) (textTable key text .taskNotDone) := by
  have hn := toNat_ofNat_length hlen (by decide)
  have hgen : generateKey (zeroEnv fun _ => some key) (addRequest text).task 0
      (addRequest text).taskLen = .ok key := by
    unfold generateKey addRequest
    dsimp only
    rw [if_pos (by rw [hn]; unfold taskLength; omega)]
    rfl
  have hins : hashTableInsert (zeroEnv fun _ => some key) (hashTableInit 0) key
      (addRequest text).task.toList (addRequest text).taskLen =
      .ok (0, textTable key text .taskNotDone) := by
    unfold hashTableInsert addRequest
    dsimp only [zeroEnv]
    rw [if_neg hkey, hn]
    show (match memcpy (zeros 1024) (strncpy 1024 text).toList text.length with
      | none => _ | some raw => _) = _
    rw [memcpy_strncpy text (by omega)]
    show Except.ok (0, insertDataPoint ⟨fun _ => [], 0 + UInt64.ofNat text.length, 1⟩ _ _) = _
    rw [UInt64.zero_add]
    rfl
  have hreq := handleStorage_add (zeroEnv fun _ => some key) storageInit
    { req := addRequest text } rfl hgen hins
  refine ⟨[.request { req := addRequest text }], ⟨textTable key text .taskNotDone, fun _ => none⟩, ?_, rfl⟩
  rw [StepRun.run_cons_eq_some]
  exact ⟨⟨textTable key text .taskNotDone, _⟩, by rw [storageStep, hreq]; rfl, rfl⟩

theorem milkTable_eq : milkTable = textTable milkKey (ascii "buy milk") .taskNotDone := rfl

theorem checkpoint_round_trip_milk :
    ∃ file t', exportDbInternal (zeroEnv fun _ => some milkKey) milkTable = .ok file ∧
      importDbInternal (zeroEnv fun _ => some milkKey) (hashTableInit 0) (some file) = .ok t' ∧
      (∀ b, (t'.data b).map view = (milkTable.data b).map view) ∧
      t'.dataSize = milkTable.dataSize := by
  have hreach : ReachableTable (zeroEnv fun _ => some milkKey) milkTable :=
    textTable_reachable milkKey (ascii "buy milk") (by decide) (by decide +kernel)
  refine checkpoint_round_trip _ (fun _ => rfl) milkTable hreach ?_ _
  intro b d hd
  rw [milkTable_eq] at hd
  rw [(textTable_mem hd).2]
  refine ⟨by decide +kernel, ?_⟩
  have ht : (entry ⟨milkKey, strncpy maxDataLen (ascii "buy milk"), .ofNat (ascii "buy milk").length,
      .taskNotDone⟩).1 = ascii "buy milk" := by decide +kernel
  rw [ht]
  exact ⟨by decide +kernel, by decide +kernel⟩

end ToDoList
