import Mathlib.Data.List.Basic

/-! `topic_name_from_avro_schema` in the `AVRO_1_8` build: `sscanf` the schema's namespace against
`GENERATED_SCHEMA_NAMESPACE ".%s"` into the uninitialised buffer `topic_name`, then copy the table
name into it or append `"."` and the table name. Strings are C byte strings, lists of `UInt8`.
`sscanf` follows the C library (`EOF`, `0` or `1`; `%s` skips white space and overruns the buffer
on a word of 128 bytes or more), and undefined behaviour makes the result `none`. A namespace that
ends inside the literal part gives `EOF`, which `!matched` takes for a match, so the topic name
depends on the buffer's initial bytes (`topicName_reads_uninitialised`); otherwise it is the one
the naming rule gives (`topicName_follows_rule`). -/

namespace BottledWater

/-- `TABLE_NAME_BUFFER_LENGTH`, the size of the `topic_name` buffer. -/
def tableNameBufferLength : Nat := 128

/-- The byte of an ASCII character. -/
def byte (c : Char) : UInt8 := c.toUInt8

/-- The bytes of an ASCII string. -/
def bytes (s : String) : List UInt8 := s.toList.map byte

/-- The terminating `'\x00'` of a C string. -/
def nul : UInt8 := 0

/-- `isspace` in the C locale: space, `'\t'`, `'\n'`, `'\v'`, `'\f'` and `'\r'`. -/
def isSpace (c : UInt8) : Bool :=
  c == 32 || c == 9 || c == 10 || c == 11 || c == 12 || c == 13

/-- A C string: its bytes before the terminator. -/
structure CString where
  chars : List UInt8
  no_nul : nul ∉ chars

/-- `GENERATED_SCHEMA_NAMESPACE`, from a header outside `bottledwater.c`: ordinary characters,
which the `sscanf` format matches one by one. -/
structure SchemaPrefix where
  chars : List UInt8
  ordinary : ∀ c ∈ chars, isSpace c = false ∧ c ≠ byte '%' ∧ c ≠ nul

/-- The bytes of `char topic_name[TABLE_NAME_BUFFER_LENGTH]`. -/
structure TopicBuffer where
  bytes : List UInt8
  length_eq : bytes.length = tableNameBufferLength

namespace TopicBuffer

/-- Store `src` at offset `pos`; `none` if that runs past the end of the buffer. -/
def write (buf : TopicBuffer) (pos : Nat) (src : List UInt8) : Option TopicBuffer :=
  if h : pos + src.length ≤ tableNameBufferLength then
    some ⟨buf.bytes.take pos ++ src ++ buf.bytes.drop (pos + src.length), by
      simp only [List.length_append, List.length_take, List.length_drop, buf.length_eq]
      omega⟩
  else none

/-- The C string the buffer holds, whose length `strlen` reads: its bytes before the first
`'\x00'`; `none` if it has none, and the read runs past its end. -/
def cstr (buf : TopicBuffer) : Option (List UInt8) :=
  if nul ∈ buf.bytes then some (buf.bytes.takeWhile (· != nul)) else none

theorem write_eq (buf : TopicBuffer) (pos : Nat) (src : List UInt8)
    (h : pos + src.length ≤ tableNameBufferLength) :
    ∃ b, buf.write pos src = some b ∧
      b.bytes = buf.bytes.take pos ++ src ++ buf.bytes.drop (pos + src.length) :=
  ⟨_, dif_pos h, rfl⟩

theorem cstr_eq {buf : TopicBuffer} {w x : List UInt8} (h : buf.bytes = w ++ x) (hw : nul ∉ w)
    (hx : x.head? = some nul) : buf.cstr = some w := by
  obtain ⟨rest, rfl⟩ : ∃ rest, x = nul :: rest := by
    cases x with
    | nil => cases hx
    | cons c rest => exact ⟨rest, by simpa using hx⟩
  have hne : ∀ c ∈ w, (c != nul) = true := fun c hc => by
    simpa using ne_of_mem_of_not_mem hc hw
  rw [cstr, if_pos (by simp [h]), h, List.takeWhile_append_of_pos hne,
    List.takeWhile_cons_of_neg (by simp), List.append_nil]

end TopicBuffer

/-- `strncpy(dst, src, n)`: the first `n` bytes become `src` padded with `'\x00'`. -/
def strncpy (buf : TopicBuffer) (src : CString) (n : Nat) : Option TopicBuffer :=
  buf.write 0 (src.chars.take n ++ List.replicate (n - src.chars.length) nul)

/-- `strncat(dst, src, n)`: at most `n` bytes of `src` and a `'\x00'` after the string in
`dst`. -/
def strncat (buf : TopicBuffer) (src : List UInt8) (n : Nat) : Option TopicBuffer := do
  let dst ← buf.cstr
  buf.write dst.length (src.take n ++ [nul])

/-- `strncat(topic_name, src, TABLE_NAME_BUFFER_LENGTH - strlen(topic_name) - 1)`. -/
def strncatClamped (buf : TopicBuffer) (src : List UInt8) : Option TopicBuffer := do
  let dst ← buf.cstr
  strncat buf src (tableNameBufferLength - dst.length - 1)

/-- How the ordinary characters of a `sscanf` format meet the input: all matched, with the rest
of the input; a character that differs (a matching failure); or the end of the input first (an
input failure). -/
inductive LiteralMatch
  | matched (rest : List UInt8)
  | mismatch
  | inputEnd
  deriving DecidableEq

/-- Match the ordinary characters `lit` of a format against the input. -/
def matchLiteral : List UInt8 → List UInt8 → LiteralMatch
  | [], input => .matched input
  | _ :: _, [] => .inputEnd
  | c :: cs, d :: ds => if c = d then matchLiteral cs ds else .mismatch

/-- `EOF`, which `sscanf` returns on an input failure before its first conversion. -/
def eof : Int := -1

/-- `sscanf(namespace, GENERATED_SCHEMA_NAMESPACE ".%s", topic_name)`: the value it returns and
the buffer after it, or `none` if the `%s` conversion writes past the buffer. `%s` skips white
space and stores the longest run of other characters, with a `'\x00'`. -/
def sscanfSchema (pre : SchemaPrefix) (ns : CString) (buf : TopicBuffer) :
    Option (Int × TopicBuffer) :=
  match matchLiteral (pre.chars ++ [byte '.']) ns.chars with
  | .inputEnd => some (eof, buf)
  | .mismatch => some (0, buf)
  | .matched rest =>
    match rest.dropWhile isSpace with
    | [] => some (eof, buf)
    | item => (buf.write 0 (item.takeWhile (!isSpace ·) ++ [nul])).map fun b => (1, b)

/-- The schema name that keeps the table name alone. -/
def publicName : List UInt8 := bytes "public"

/-- The branch after `sscanf`: with `copyTable`, `topic_name` becomes the table name, clamped by
`strncpy` and a `'\x00'` in its last byte; otherwise a `"."` and the table name are appended. -/
def fillTopicName (copyTable : Bool) (tableName : CString) (buf : TopicBuffer) :
    Option TopicBuffer :=
  if copyTable then
    (strncpy buf tableName tableNameBufferLength).bind (·.write (tableNameBufferLength - 1) [nul])
  else
    (strncatClamped buf [byte '.']).bind (strncatClamped · tableName.chars)

/-- `topic_name_from_avro_schema` for a row schema with namespace `ns` and name `tableName`,
where `buf` holds what the uninitialised `topic_name` starts with: the string it returns, or
`none` on undefined behaviour (a write past `topic_name`, or a read of it with no `'\x00'`). -/
def topicNameFromAvroSchema (pre : SchemaPrefix) (ns tableName : CString) (buf : TopicBuffer) :
    Option (List UInt8) := do
  let (matched, buf) ← sscanfSchema pre ns buf
  let copyTable ← if matched = 0 then some true else buf.cstr.map (· == publicName)
  let buf ← fillTopicName copyTable tableName buf
  buf.cstr

theorem topicNameFromAvroSchema_eq {pre : SchemaPrefix} {ns : CString} {buf b : TopicBuffer}
    {m : Int} (h : sscanfSchema pre ns buf = some (m, b)) (tableName : CString) :
    topicNameFromAvroSchema pre ns tableName buf =
      if m = 0 then (fillTopicName true tableName b).bind TopicBuffer.cstr
      else (b.cstr.map (· == publicName)).bind fun c =>
        (fillTopicName c tableName b).bind TopicBuffer.cstr := by
  simp [topicNameFromAvroSchema, h]

theorem matchLiteral_append : ∀ lit rest : List UInt8, matchLiteral lit (lit ++ rest) = .matched rest
  | [], _ => rfl
  | c :: cs, rest => by simp [matchLiteral, matchLiteral_append cs rest]

theorem matchLiteral_of_prefix : ∀ {lit input : List UInt8}, input <+: lit →
    matchLiteral lit input = .inputEnd ∨ matchLiteral lit input = .matched []
  | [], input, h => by rw [List.prefix_nil.1 h]; exact .inr rfl
  | _ :: _, [], _ => .inl rfl
  | c :: cs, d :: ds, h => by
      obtain ⟨rfl, h'⟩ := List.cons_prefix_cons.1 h
      simpa [matchLiteral] using matchLiteral_of_prefix h'

theorem matchLiteral_mismatch : ∀ {lit input : List UInt8}, ¬input <+: lit → ¬lit <+: input →
    matchLiteral lit input = .mismatch
  | [], _, _, h2 => absurd List.nil_prefix h2
  | _ :: _, [], h1, _ => absurd List.nil_prefix h1
  | c :: cs, d :: ds, h1, h2 => by
      rw [matchLiteral]
      split_ifs with hcd
      · subst hcd
        exact matchLiteral_mismatch (fun h => h1 (List.cons_prefix_cons.2 ⟨rfl, h⟩))
          (fun h => h2 (List.cons_prefix_cons.2 ⟨rfl, h⟩))
      · rfl

section

variable {pre : SchemaPrefix} {ns : CString}

theorem sscanfSchema_eof (h : ns.chars <+: pre.chars ++ [byte '.']) (buf : TopicBuffer) :
    sscanfSchema pre ns buf = some (eof, buf) := by
  rcases matchLiteral_of_prefix h with h' | h' <;> simp [sscanfSchema, h']

theorem sscanfSchema_mismatch (h1 : ¬ns.chars <+: pre.chars ++ [byte '.'])
    (h2 : ¬pre.chars ++ [byte '.'] <+: ns.chars) (buf : TopicBuffer) :
    sscanfSchema pre ns buf = some (0, buf) := by
  simp [sscanfSchema, matchLiteral_mismatch h1 h2]

/-- A schema name without white space that fits the buffer is stored in `topic_name`. -/
theorem sscanfSchema_schema {s : List UInt8} (h : ns.chars = pre.chars ++ byte '.' :: s)
    (hs : s ≠ []) (hsp : ∀ c ∈ s, isSpace c = false) (hlen : s.length < tableNameBufferLength)
    (buf : TopicBuffer) :
    ∃ b, sscanfSchema pre ns buf = some (1, b) ∧
      b.bytes = s ++ nul :: buf.bytes.drop (s.length + 1) := by
  obtain ⟨c, s', rfl⟩ := List.exists_cons_of_ne_nil hs
  have hmatch : matchLiteral (pre.chars ++ [byte '.']) ns.chars = .matched (c :: s') := by
    rw [h, show pre.chars ++ byte '.' :: c :: s' = pre.chars ++ [byte '.'] ++ c :: s' by simp,
      matchLiteral_append]
  have hdrop : (c :: s').dropWhile isSpace = c :: s' :=
    List.dropWhile_cons_of_neg (by simp [hsp c (List.mem_cons_self _ _)])
  have htake : (c :: s').takeWhile (!isSpace ·) = c :: s' :=
    List.takeWhile_eq_self_iff.2 fun x hx => by simp [hsp x hx]
  obtain ⟨b, hb, hbytes⟩ := (buf.write_eq 0 (c :: s' ++ [nul])
    (by simp only [List.length_append, List.length_singleton]; omega))
  refine ⟨b, ?_, by simpa using hbytes⟩
  simp only [sscanfSchema, hmatch, hdrop, htake, hb, Option.map_some']

end

theorem head?_replicate_append (k : Nat) : (List.replicate k nul ++ [nul]).head? = some nul := by
  cases k <;> rfl

theorem fillTopicName_copy (t : CString) (buf : TopicBuffer) :
    ∃ b, fillTopicName true t buf = some b ∧
      b.cstr = some (t.chars.take (tableNameBufferLength - 1)) := by
  have hlen : (t.chars.take tableNameBufferLength ++
      List.replicate (tableNameBufferLength - t.chars.length) nul).length =
        tableNameBufferLength := by
    simp only [List.length_append, List.length_take, List.length_replicate]
    omega
  obtain ⟨b1, hb1, hbytes1⟩ := buf.write_eq 0 (t.chars.take tableNameBufferLength ++
    List.replicate (tableNameBufferLength - t.chars.length) nul) (by rw [hlen]; omega)
  rw [Nat.zero_add, hlen, List.drop_eq_nil_of_le buf.length_eq.le, List.take_zero,
    List.nil_append, List.append_nil] at hbytes1
  obtain ⟨b2, hb2, hbytes2⟩ := b1.write_eq (tableNameBufferLength - 1) [nul]
    (by simp [tableNameBufferLength])
  rw [List.drop_eq_nil_of_le (by rw [b1.length_eq]; simp [tableNameBufferLength]),
    List.append_nil, hbytes1, List.take_append_eq_append_take, List.take_take,
    List.take_replicate] at hbytes2
  refine ⟨b2, by rw [fillTopicName, if_pos rfl, strncpy, hb1, Option.some_bind, hb2], ?_⟩
  refine TopicBuffer.cstr_eq (hbytes2.trans (List.append_assoc _ _ _)) ?_ ?_
  · exact fun h => t.no_nul (List.mem_of_mem_take h)
  · exact head?_replicate_append _

theorem strncatClamped_eq {buf : TopicBuffer} {w x : List UInt8} (h : buf.bytes = w ++ x)
    (hw : nul ∉ w) (hx : x.head? = some nul) (src : List UInt8) :
    ∃ b x', strncatClamped buf src = some b ∧
      b.bytes = w ++ src.take (tableNameBufferLength - w.length - 1) ++ x' ∧
      x'.head? = some nul := by
  have hc := TopicBuffer.cstr_eq h hw hx
  have hwlen : w.length < tableNameBufferLength := by
    have hl := congrArg List.length h
    rw [buf.length_eq, List.length_append] at hl
    have : 0 < x.length := by cases x <;> simp_all
    omega
  obtain ⟨b, hb, hbytes⟩ := buf.write_eq w.length
    (src.take (tableNameBufferLength - w.length - 1) ++ [nul])
    (by simp only [List.length_append, List.length_take, List.length_singleton]; omega)
  refine ⟨b, nul :: buf.bytes.drop
      (w.length + (src.take (tableNameBufferLength - w.length - 1) ++ [nul]).length),
    by simp only [strncatClamped, strncat, hc, Option.some_bind]; exact hb, ?_, rfl⟩
  rw [hbytes, h, List.take_left' rfl]
  simp

theorem take_concat_clamped {s t : List UInt8} (hs : s.length < tableNameBufferLength) :
    s ++ [byte '.'].take (tableNameBufferLength - s.length - 1) ++
        t.take (tableNameBufferLength -
          (s ++ [byte '.'].take (tableNameBufferLength - s.length - 1)).length - 1) =
      (s ++ byte '.' :: t).take (tableNameBufferLength - 1) := by
  rw [List.take_append_eq_append_take, List.take_of_length_le (l := s) (by omega), List.append_assoc,
    List.length_append]
  congr 1
  have hk : tableNameBufferLength - s.length - 1 = tableNameBufferLength - 1 - s.length := by omega
  rw [hk]
  generalize hk' : tableNameBufferLength - 1 - s.length = k
  cases k with
  | zero => simp; omega
  | succ j =>
      simp only [List.take_succ_cons, List.take_nil, List.length_singleton, List.singleton_append]
      congr 2
      omega

theorem fillTopicName_concat (t : CString) {buf : TopicBuffer} {s x : List UInt8}
    (h : buf.bytes = s ++ x) (hs : nul ∉ s) (hx : x.head? = some nul) :
    ∃ b, fillTopicName false t buf = some b ∧
      b.cstr = some ((s ++ byte '.' :: t.chars).take (tableNameBufferLength - 1)) := by
  obtain ⟨b1, x1, hb1, hbytes1, hx1⟩ := strncatClamped_eq h hs hx [byte '.']
  have hw1 : nul ∉ s ++ [byte '.'].take (tableNameBufferLength - s.length - 1) := fun hm => by
    rcases List.mem_append.1 hm with hm | hm
    · exact hs hm
    · exact absurd (List.mem_singleton.1 (List.mem_of_mem_take hm)) (by decide)
  obtain ⟨b2, x2, hb2, hbytes2, hx2⟩ := strncatClamped_eq hbytes1 hw1 hx1 t.chars
  refine ⟨b2, by rw [fillTopicName, if_neg Bool.false_ne_true, hb1, Option.some_bind, hb2], ?_⟩
  rw [TopicBuffer.cstr_eq hbytes2 (fun hm => ?_) hx2]
  · have hl := congrArg List.length h
    rw [buf.length_eq, List.length_append] at hl
    have : 0 < x.length := by cases x <;> simp_all
    rw [take_concat_clamped (by omega)]
  · rcases List.mem_append.1 hm with hm | hm
    · exact hw1 hm
    · exact t.no_nul (List.mem_of_mem_take hm)

/-- `topic_name` holding `"public"` before the call. -/
def publicBuffer : TopicBuffer := ⟨publicName ++ List.replicate 122 nul, rfl⟩

/-- `topic_name` holding only `'\x00'` before the call. -/
def zeroBuffer : TopicBuffer := ⟨List.replicate 128 nul, rfl⟩

/-- A namespace that ends inside `GENERATED_SCHEMA_NAMESPACE "."` gives the table name when
`topic_name` happened to hold `"public"`, and a `'.'` before it when it held `'\x00'`s. -/
theorem topicName_reads_uninitialised (pre : SchemaPrefix) {ns : CString}
    (hns : ns.chars <+: pre.chars ++ [byte '.']) (t : CString) :
    topicNameFromAvroSchema pre ns t publicBuffer =
        some (t.chars.take (tableNameBufferLength - 1)) ∧
      topicNameFromAvroSchema pre ns t zeroBuffer =
        some ((byte '.' :: t.chars).take (tableNameBufferLength - 1)) := by
  have heof : eof ≠ 0 := by decide
  constructor
  · rw [topicNameFromAvroSchema_eq (sscanfSchema_eof hns _), if_neg heof,
      TopicBuffer.cstr_eq (w := publicName) (x := List.replicate 122 nul) rfl (by decide) rfl]
    obtain ⟨b, hb, hc⟩ := fillTopicName_copy t publicBuffer
    simp [hb, hc]
  · rw [topicNameFromAvroSchema_eq (sscanfSchema_eof hns _), if_neg heof,
      TopicBuffer.cstr_eq (w := []) (x := List.replicate 128 nul) rfl (by simp) rfl]
    obtain ⟨b, hb, hc⟩ :=
      @fillTopicName_concat t zeroBuffer [] (List.replicate 128 nul) rfl (by simp) rfl
    simp [hb, hc, show publicName.isEmpty = false by decide]

/-- The namespace is the prefix itself. -/
theorem topicName_reads_uninitialised_at_prefix :
    topicNameFromAvroSchema ⟨bytes "bottledwater", by decide⟩ ⟨bytes "bottledwater", by decide⟩
        ⟨bytes "users", by decide⟩ publicBuffer =
        some ((bytes "users").take (tableNameBufferLength - 1)) ∧
      topicNameFromAvroSchema ⟨bytes "bottledwater", by decide⟩
          ⟨bytes "bottledwater", by decide⟩ ⟨bytes "users", by decide⟩ zeroBuffer =
        some ((byte '.' :: bytes "users").take (tableNameBufferLength - 1)) :=
  topicName_reads_uninitialised _ (List.prefix_append _ _) _

/-- The topic naming rule as the specification states it, to compare with the code: the table
name, unless the namespace is `GENERATED_SCHEMA_NAMESPACE`, a `'.'` and a non-empty schema name
other than `public`, which then comes first with a `'.'`; clamped to
`TABLE_NAME_BUFFER_LENGTH - 1` bytes. -/
def topicNameRule (pre : SchemaPrefix) (ns tableName : List UInt8) : List UInt8 :=
  let schema := ns.drop (pre.chars.length + 1)
  (if (pre.chars ++ [byte '.']).isPrefixOf ns && !schema.isEmpty && schema != publicName then
      schema ++ byte '.' :: tableName
    else tableName).take (tableNameBufferLength - 1)

/-- A namespace that does not end inside `GENERATED_SCHEMA_NAMESPACE "."`, and whose schema name,
if it has one, has no white space and fits `topic_name`, gives the topic name of the naming rule,
whatever `topic_name` held. -/
theorem topicName_follows_rule (pre : SchemaPrefix) {ns : CString}
    (hns : ¬ns.chars <+: pre.chars ++ [byte '.'])
    (hschema : ∀ s, ns.chars = pre.chars ++ byte '.' :: s →
      (∀ c ∈ s, isSpace c = false) ∧ s.length < tableNameBufferLength)
    (t : CString) (buf : TopicBuffer) :
    topicNameFromAvroSchema pre ns t buf = some (topicNameRule pre ns.chars t.chars) := by
  by_cases hp : pre.chars ++ [byte '.'] <+: ns.chars
  · obtain ⟨s, hs⟩ := hp
    have hns' : ns.chars = pre.chars ++ byte '.' :: s := by rw [← hs]; simp
    have hs0 : s ≠ [] := by
      rintro rfl
      exact hns ⟨[], by rw [hns']; simp⟩
    obtain ⟨hsp, hlen⟩ := hschema s hns'
    obtain ⟨b, hb, hbytes⟩ := sscanfSchema_schema hns' hs0 hsp hlen buf
    have hsn : nul ∉ s := fun h => ns.no_nul (by rw [hns']; simp [h])
    have hrule : topicNameRule pre ns.chars t.chars =
        (if s = publicName then t.chars else s ++ byte '.' :: t.chars).take
          (tableNameBufferLength - 1) := by
      simp [topicNameRule, hns', hs0]
    rw [topicNameFromAvroSchema_eq hb, if_neg (by decide : (1 : Int) ≠ 0),
      TopicBuffer.cstr_eq hbytes hsn rfl, hrule]
    by_cases hpub : s = publicName
    · obtain ⟨b', hb', hc'⟩ := fillTopicName_copy t b
      simp [hpub, hb', hc']
    · obtain ⟨b', hb', hc'⟩ := fillTopicName_concat t hbytes hsn rfl
      rw [Option.map_some', Option.some_bind, beq_eq_false_iff_ne.2 hpub, hb', Option.some_bind,
        hc', if_neg hpub]
  · rw [topicNameFromAvroSchema_eq (sscanfSchema_mismatch hns hp buf), if_pos rfl]
    obtain ⟨b', hb', hc'⟩ := fillTopicName_copy t buf
    have hrule : topicNameRule pre ns.chars t.chars = t.chars.take (tableNameBufferLength - 1) := by
      simp [topicNameRule, hp]
    simp [hb', hc', hrule]

/-- A schema other than `public`. -/
theorem topicName_follows_rule_sales :
    topicNameFromAvroSchema ⟨bytes "bottledwater", by decide⟩
        ⟨bytes "bottledwater.sales", by decide⟩ ⟨bytes "users", by decide⟩ zeroBuffer =
      some (topicNameRule ⟨bytes "bottledwater", by decide⟩ (bytes "bottledwater.sales")
        (bytes "users")) :=
  topicName_follows_rule _ (by decide) (fun s hs => by
    have hs' := (show bytes "bottledwater" ++ byte '.' :: bytes "sales" =
      bytes "bottledwater.sales" by decide).trans hs
    obtain rfl := (List.cons.inj (List.append_cancel_left hs')).2
    decide) _ _

end BottledWater