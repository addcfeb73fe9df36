import Oproxy.Export.Replay
import Oproxy.Lib.Shell

/-!
# The words of a curl export (`export.rs`)

Values and bodies are escaped on their way into quotes, the URI and the names of header fields are not, and the method
stands without quotes.
-/

namespace Oproxy

namespace Export

open Shell (Word)

/-- A word in quotes: what stands before the escaped text, and that text. -/
def quotedWord (before text : Str) : Word :=
  ⟨'\'' :: (before ++ (Shell.quoteEscaped text ++ ['\''])), before ++ text⟩

def flagWord (flag : Str) : Word := ⟨flag, flag⟩

/-- The words of the command, each with the text which is written for it. -/
def curlWords (req : RequestContext) : List Word :=
  [flagWord "curl", flagWord "-X", ⟨req.method, req.method⟩, ⟨'\'' :: (req.uri ++ ['\'']), req.uri⟩] ++
    (replayHeaders req.headers false).flatMap (fun e => [flagWord "-H", quotedWord (e.1 ++ (": " : Str)) e.2]) ++
    (if req.body.isEmpty then [] else [flagWord "--data", quotedWord [] req.bodyText])

/-- The export is one command with these words, and each of them is read from the text which is written for it. -/
def CurlExact (parseJson : Str → Option Json) (ex : Exchange) : Prop :=
  Shell.lex [] (exportAsCurlRaw parseJson ex) = some [curlWords ex.request]

/-- The texts which are not escaped: the method is a plain word, and there is no quote in the URI nor in the names. -/
structure PlainTexts (req : RequestContext) : Prop where
  method : Shell.IsPlainWord req.method
  uri : '\'' ∉ req.uri
  names : ∀ e ∈ replayHeaders req.headers false, '\'' ∉ e.1

/-! ### What the words tell -/

/-- A text in quotes, as it stands, has no quote. -/
theorem quote_not_mem_of_lexed {text : Str} (h : Shell.Lexed ⟨'\'' :: (text ++ ['\'']), text⟩) : '\'' ∉ text := by
  intro hmem
  obtain ⟨before, after, rfl, hbefore⟩ := List.eq_append_cons_of_mem hmem
  have hlexed : Shell.Lexed ⟨'\'' :: (before ++ '\'' :: (after ++ ['\''])), before ++ '\'' :: after⟩ := by
    simpa using h
  obtain ⟨rest, hscan⟩ := Shell.scan_of_lexed hbefore hlexed
  rcases Shell.length_value hscan with hlt | ⟨-, -, hplain⟩
  · simp at hlt
  · have hquote := List.all_eq_true.1 hplain '\'' (by simp)
    revert hquote
    decide

theorem takeWhile_append_blank (a s : Str) :
    (a ++ ' ' :: s).takeWhile (fun c => !decide (c = ' ')) = a.takeWhile fun c => !decide (c = ' ') := by
  induction a with
  | nil => rfl
  | cons c a ih =>
    by_cases hc : c = ' '
    · simp [hc]
    · simp [hc, ih]

/-- A name in quotes, before an escaped value, has no quote. -/
theorem quote_not_mem_of_lexed_name {name value : Str} (h : Shell.Lexed (quotedWord (name ++ (": " : Str)) value)) :
    '\'' ∉ name := by
  intro hmem
  obtain ⟨before, after, rfl, hbefore⟩ := List.eq_append_cons_of_mem hmem
  have hlexed : Shell.Lexed ⟨'\'' :: (before ++ '\'' :: (after ++ ':' :: ' ' :: (Shell.quoteEscaped value ++ ['\'']))),
      before ++ '\'' :: (after ++ ':' :: ' ' :: value)⟩ := by
    have hcolon : (": " : Str) = [':', ' '] := rfl
    simpa [quotedWord, hcolon] using h
  obtain ⟨rest, hscan⟩ := Shell.scan_of_lexed hbefore hlexed
  -- the value has a quote more before its first blank than its source has characters there
  have hle := Shell.length_takeWhile_value hscan
  have hsource : after ++ ':' :: ' ' :: (Shell.quoteEscaped value ++ ['\'']) =
      (after ++ [':']) ++ ' ' :: (Shell.quoteEscaped value ++ ['\'']) := by simp
  have hvalue : '\'' :: (after ++ ':' :: ' ' :: value) = ('\'' :: (after ++ [':'])) ++ ' ' :: value := by simp
  rw [hsource, hvalue, takeWhile_append_blank, takeWhile_append_blank, List.takeWhile_cons_of_pos (by decide),
    List.length_cons] at hle
  omega

theorem plainTexts_of_curlExact {parseJson : Str → Option Json} {ex : Exchange} (h : CurlExact parseJson ex) :
    PlainTexts ex.request := by
  have hlexed : ∀ w ∈ curlWords ex.request, Shell.Lexed w := fun w hw =>
    (Shell.lexed_of_lex h _ (List.mem_singleton.2 rfl) w hw).resolve_left List.not_mem_nil
  have hfirst : ∀ w ∈ [flagWord "curl", flagWord "-X", ⟨ex.request.method, ex.request.method⟩,
      ⟨'\'' :: (ex.request.uri ++ ['\'']), ex.request.uri⟩], Shell.Lexed w := fun w hw =>
    hlexed w (List.mem_append_left _ (List.mem_append_left _ hw))
  constructor
  · exact Shell.isPlainWord_of_lexed (hfirst _ (List.mem_cons_of_mem _ (List.mem_cons_of_mem _ List.mem_cons_self)))
  · exact quote_not_mem_of_lexed (hfirst _ (List.mem_cons_of_mem _ (List.mem_cons_of_mem _
      (List.mem_cons_of_mem _ List.mem_cons_self))))
  · intro e he
    refine quote_not_mem_of_lexed_name (hlexed (quotedWord (e.1 ++ (": " : Str)) e.2) ?_)
    refine List.mem_append_left _ (List.mem_append_right _ (List.mem_flatMap.2 ⟨e, he, ?_⟩))
    exact List.mem_cons_of_mem _ List.mem_cons_self

/-! ### What is written -/

theorem reads_flag {flag : Str} (h : Shell.startsWord flag = true) (hplain : flag.all Shell.isPlain = true) :
    Shell.Reads flag [flagWord flag] := Shell.reads_plain ⟨h, hplain⟩

theorem reads_uri {uri : Str} (h : '\'' ∉ uri) :
    Shell.Reads ('\'' :: (uri ++ ['\''])) [⟨'\'' :: (uri ++ ['\'']), uri⟩] := by
  have hquoted := Shell.reads_quoted h []
  have hnil : Shell.quoteEscaped [] = [] := Str.replace_nil _ _
  rw [hnil, List.nil_append, List.append_nil] at hquoted
  exact hquoted

theorem reads_command {req : RequestContext} (h : PlainTexts req) :
    Shell.Reads (("curl -X " : Str) ++ req.method ++ (" '" : Str) ++ req.uri ++ ("'" : Str))
      [flagWord "curl", flagWord "-X", ⟨req.method, req.method⟩, ⟨'\'' :: (req.uri ++ ['\'']), req.uri⟩] := by
  have hcurl := reads_flag (show Shell.startsWord ("curl" : Str) = true by decide) (by decide)
  have hflag := reads_flag (show Shell.startsWord ("-X" : Str) = true by decide) (by decide)
  have hall := ((hcurl.append Shell.gap_blank hflag).append Shell.gap_blank (Shell.reads_plain h.method)).append
    Shell.gap_blank (reads_uri h.uri)
  have htext : ("curl" : Str) ++ (" " : Str) ++ ("-X" : Str) ++ (" " : Str) ++ req.method ++ (" " : Str) ++
      '\'' :: (req.uri ++ ['\'']) =
        ("curl -X " : Str) ++ req.method ++ (" '" : Str) ++ req.uri ++ ("'" : Str) := by
    have hhead : ("curl" : Str) ++ (" " : Str) ++ ("-X" : Str) ++ (" " : Str) = ("curl -X " : Str) := rfl
    have hquote : (" '" : Str) = [' ', '\''] := rfl
    have hblank : (" " : Str) = [' '] := rfl
    have hend : ("'" : Str) = ['\''] := rfl
    rw [hhead, hquote, hblank, hend]
    simp
  rw [htext] at hall
  exact hall

theorem reads_header {e : Str × Str} (h : '\'' ∉ e.1) :
    Shell.Reads (curlHeader e) [flagWord "-H", quotedWord (e.1 ++ (": " : Str)) e.2] := by
  have hflag := reads_flag (show Shell.startsWord ("-H" : Str) = true by decide) (by decide)
  have hname : '\'' ∉ e.1 ++ (": " : Str) := by
    have hcolon : '\'' ∉ (": " : Str) := by decide
    simp only [List.mem_append, h, hcolon, or_self, not_false_eq_true]
  have hall := hflag.append Shell.gap_blank (Shell.reads_quoted hname e.2)
  have htext : ("-H" : Str) ++ (" " : Str) ++
      '\'' :: (e.1 ++ (": " : Str) ++ (Shell.quoteEscaped e.2 ++ ['\''])) = curlHeader e := by
    show _ = ("-H '" : Str) ++ e.1 ++ (": " : Str) ++ Shell.quoteEscaped e.2 ++ ("'" : Str)
    have hhead : ("-H '" : Str) = ("-H" : Str) ++ (" " : Str) ++ ['\''] := rfl
    have hend : ("'" : Str) = ['\''] := rfl
    rw [hhead, hend]
    simp
  rw [htext] at hall
  exact hall

theorem reads_data (body : Str) : Shell.Reads (curlData body) [flagWord "--data", quotedWord [] body] := by
  have hflag := reads_flag (show Shell.startsWord ("--data" : Str) = true by decide) (by decide)
  have hall := hflag.append Shell.gap_blank (Shell.reads_quoted List.not_mem_nil body)
  have htext : ("--data" : Str) ++ (" " : Str) ++ '\'' :: ([] ++ (Shell.quoteEscaped body ++ ['\''])) =
      curlData body := by
    show _ = ("--data '" : Str) ++ Shell.quoteEscaped body ++ ("'" : Str)
    have hhead : ("--data '" : Str) = ("--data" : Str) ++ (" " : Str) ++ ['\''] := rfl
    have hend : ("'" : Str) = ['\''] := rfl
    rw [hhead, hend]
    simp
  rw [htext] at hall
  exact hall

/-- The parts of the export, each with its words. -/
def curlParts (req : RequestContext) : List (Str × List Word) :=
  (("curl -X " : Str) ++ req.method ++ (" '" : Str) ++ req.uri ++ ("'" : Str),
      [flagWord "curl", flagWord "-X", ⟨req.method, req.method⟩, ⟨'\'' :: (req.uri ++ ['\'']), req.uri⟩]) ::
    ((replayHeaders req.headers false).map
        (fun e => (curlHeader e, [flagWord "-H", quotedWord (e.1 ++ (": " : Str)) e.2])) ++
      if req.body.isEmpty then [] else [(curlData req.bodyText, [flagWord "--data", quotedWord [] req.bodyText])])

theorem exportAsCurlRaw_eq (parseJson : Str → Option Json) (ex : Exchange) :
    exportAsCurlRaw parseJson ex = List.intercalate " \\\n  " ((curlParts ex.request).map Prod.fst) := by
  have hheaders : ((replayHeaders ex.request.headers false).map fun e =>
      (curlHeader e, [flagWord "-H", quotedWord (e.1 ++ (": " : Str)) e.2])).map Prod.fst =
        (replayHeaders ex.request.headers false).map curlHeader := by
    rw [List.map_map]
    rfl
  unfold exportAsCurlRaw exportAsCurlWithRedaction curlParts
  rw [List.map_cons, List.map_append, hheaders]
  by_cases hbody : ex.request.body.isEmpty = true
  · simp only [if_pos hbody]
    rfl
  · simp only [if_neg hbody]
    rfl

theorem curlWords_eq (req : RequestContext) : curlWords req = ((curlParts req).map Prod.snd).flatten := by
  have hheaders : ((replayHeaders req.headers false).map fun e =>
      (curlHeader e, [flagWord "-H", quotedWord (e.1 ++ (": " : Str)) e.2])).map Prod.snd =
        (replayHeaders req.headers false).map fun e => [flagWord "-H", quotedWord (e.1 ++ (": " : Str)) e.2] := by
    rw [List.map_map]
    rfl
  unfold curlWords curlParts
  rw [List.flatMap_def, List.map_cons, List.map_append, hheaders, List.flatten_cons, List.flatten_append,
    List.append_assoc]
  by_cases hbody : req.body.isEmpty = true
  · rw [if_pos hbody, if_pos hbody]
    rfl
  · rw [if_neg hbody, if_neg hbody]
    rfl

/-- The export is the request and nothing else exactly where the texts which are not escaped are plain. -/
theorem curlExact_iff (parseJson : Str → Option Json) (ex : Exchange) :
    CurlExact parseJson ex ↔ PlainTexts ex.request := by
  refine ⟨plainTexts_of_curlExact, fun h => ?_⟩
  have hparts : ∀ part ∈ curlParts ex.request, Shell.Reads part.1 part.2 := by
    refine List.forall_mem_cons.2 ⟨reads_command h, fun part hpart => ?_⟩
    rcases List.mem_append.1 hpart with hpart | hpart
    · obtain ⟨e, he, rfl⟩ := List.mem_map.1 hpart
      exact reads_header (h.names e he)
    · split at hpart
      · cases hpart
      · rw [List.mem_singleton.1 hpart]
        exact reads_data _
  have hne : curlParts ex.request ≠ [] := List.cons_ne_nil _ _
  have hall := Shell.reads_intercalate Shell.gap_continued hne hparts
  rw [← exportAsCurlRaw_eq parseJson ex, ← curlWords_eq] at hall
  exact hall.lex_eq (List.cons_ne_nil _ _)

/-! ### A URI with a quote -/

private def quotedUri : Exchange where
  id := "e1"
  timestamp := 0
  updatedAt := none
  request := { RequestContext.default with method := "GET", uri := "/'; rm -r x; '" }
  response := none
  metrics := none
  source := .proxy
  wsFrames := []
  events := []
  flow := []
  note := none
  tags := []
  inspectorData := none
  pausedAt := none
  connectionId := none
  streamId := none
  downstreamProtocol := none
  protocolContext := none

/-- The URI ends its quotes and begins another command. -/
theorem not_curlExact : ¬ ∀ (parseJson : Str → Option Json) (ex : Exchange), CurlExact parseJson ex := fun h =>
  (plainTexts_of_curlExact (h (fun _ => none) quotedUri)).uri (by decide)

end Export

end Oproxy
