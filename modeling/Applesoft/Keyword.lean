import Applesoft.Text

/-!
# Keywords of Applesoft BASIC

A keyword is spelled by a word, and some by a word and a mark after it, such as `PR` and `#`.
In memory a keyword is one byte; the bytes follow the order of declaration from `0x80` on.
-/
namespace Applesoft

/-- The keywords, operators among them; `question` is the alias `?` of `print`. -/
inductive Keyword
  | endRun | forLoop | next | data | input | del | dim | read | gr | text | prSlot | inSlot
  | call | plot | hlin | vlin | hgr2 | hgr | hcolor | hplot | draw | xdraw | htab | home | rot
  | scale | shload | trace | noTrace | normal | inverse | flash | color | pop | vtab | himem
  | lomem | onErr | resume | recall | store | speed | letVar | goto | run | ifTest | restore
  | ampersand | gosub | returnSub | rem | stop | on | wait | load | save | defFn | poke | print
  | cont | list | clear | get | new | tab | to | fn | spc | thenDo | atPlace | not | step | plus
  | minus | times | divide | power | and | or | greater | equal | less | sgn | int | abs | usr
  | fre | scrn | pdl | pos | sqr | rnd | log | exp | cos | sin | tan | atn | peek | len | str
  | val | asc | chr | left | right | mid
  | question
  deriving DecidableEq, Repr

namespace Keyword

def word : Keyword → Text
  | .endRun => "END".toList
  | .forLoop => "FOR".toList
  | .next => "NEXT".toList
  | .data => "DATA".toList
  | .input => "INPUT".toList
  | .del => "DEL".toList
  | .dim => "DIM".toList
  | .read => "READ".toList
  | .gr => "GR".toList
  | .text => "TEXT".toList
  | .prSlot => "PR".toList
  | .inSlot => "IN".toList
  | .call => "CALL".toList
  | .plot => "PLOT".toList
  | .hlin => "HLIN".toList
  | .vlin => "VLIN".toList
  | .hgr2 => "HGR2".toList
  | .hgr => "HGR".toList
  | .hcolor => "HCOLOR".toList
  | .hplot => "HPLOT".toList
  | .draw => "DRAW".toList
  | .xdraw => "XDRAW".toList
  | .htab => "HTAB".toList
  | .home => "HOME".toList
  | .rot => "ROT".toList
  | .scale => "SCALE".toList
  | .shload => "SHLOAD".toList
  | .trace => "TRACE".toList
  | .noTrace => "NOTRACE".toList
  | .normal => "NORMAL".toList
  | .inverse => "INVERSE".toList
  | .flash => "FLASH".toList
  | .color => "COLOR".toList
  | .pop => "POP".toList
  | .vtab => "VTAB".toList
  | .himem => "HIMEM".toList
  | .lomem => "LOMEM".toList
  | .onErr => "ONERR".toList
  | .resume => "RESUME".toList
  | .recall => "RECALL".toList
  | .store => "STORE".toList
  | .speed => "SPEED".toList
  | .letVar => "LET".toList
  | .goto => "GOTO".toList
  | .run => "RUN".toList
  | .ifTest => "IF".toList
  | .restore => "RESTORE".toList
  | .ampersand => "&".toList
  | .gosub => "GOSUB".toList
  | .returnSub => "RETURN".toList
  | .rem => "REM".toList
  | .stop => "STOP".toList
  | .on => "ON".toList
  | .wait => "WAIT".toList
  | .load => "LOAD".toList
  | .save => "SAVE".toList
  | .defFn => "DEF".toList
  | .poke => "POKE".toList
  | .print => "PRINT".toList
  | .cont => "CONT".toList
  | .list => "LIST".toList
  | .clear => "CLEAR".toList
  | .get => "GET".toList
  | .new => "NEW".toList
  | .tab => "TAB".toList
  | .to => "TO".toList
  | .fn => "FN".toList
  | .spc => "SPC".toList
  | .thenDo => "THEN".toList
  | .atPlace => "AT".toList
  | .not => "NOT".toList
  | .step => "STEP".toList
  | .plus => "+".toList
  | .minus => "-".toList
  | .times => "*".toList
  | .divide => "/".toList
  | .power => "^".toList
  | .and => "AND".toList
  | .or => "OR".toList
  | .greater => ">".toList
  | .equal => "=".toList
  | .less => "<".toList
  | .sgn => "SGN".toList
  | .int => "INT".toList
  | .abs => "ABS".toList
  | .usr => "USR".toList
  | .fre => "FRE".toList
  | .scrn => "SCRN".toList
  | .pdl => "PDL".toList
  | .pos => "POS".toList
  | .sqr => "SQR".toList
  | .rnd => "RND".toList
  | .log => "LOG".toList
  | .exp => "EXP".toList
  | .cos => "COS".toList
  | .sin => "SIN".toList
  | .tan => "TAN".toList
  | .atn => "ATN".toList
  | .peek => "PEEK".toList
  | .len => "LEN".toList
  | .str => "STR$".toList
  | .val => "VAL".toList
  | .asc => "ASC".toList
  | .chr => "CHR$".toList
  | .left => "LEFT$".toList
  | .right => "RIGHT$".toList
  | .mid => "MID$".toList
  | .question => "?".toList

def mark? : Keyword → Option Char
  | .prSlot | .inSlot => some '#'
  | .hcolor | .rot | .scale | .color | .speed => some '='
  | .himem | .lomem => some ':'
  | .tab | .spc | .scrn => some '('
  | _ => none

def spelling (k : Keyword) : Text :=
  k.word ++ k.mark?.toList

def code : Keyword → UInt8
  | .question => 0xBA
  | k => UInt8.ofNat (0x80 + k.ctorIdx)

def all : List Keyword :=
  [.endRun, .forLoop, .next, .data, .input, .del, .dim, .read, .gr, .text, .prSlot, .inSlot,
   .call, .plot, .hlin, .vlin, .hgr2, .hgr, .hcolor, .hplot, .draw, .xdraw, .htab, .home, .rot,
   .scale, .shload, .trace, .noTrace, .normal, .inverse, .flash, .color, .pop, .vtab, .himem,
   .lomem, .onErr, .resume, .recall, .store, .speed, .letVar, .goto, .run, .ifTest, .restore,
   .ampersand, .gosub, .returnSub, .rem, .stop, .on, .wait, .load, .save, .defFn, .poke, .print,
   .cont, .list, .clear, .get, .new, .tab, .to, .fn, .spc, .thenDo, .atPlace, .not, .step, .plus,
   .minus, .times, .divide, .power, .and, .or, .greater, .equal, .less, .sgn, .int, .abs, .usr,
   .fre, .scrn, .pdl, .pos, .sqr, .rnd, .log, .exp, .cos, .sin, .tan, .atn, .peek, .len, .str,
   .val, .asc, .chr, .left, .right, .mid]

/-- The keyword whose spelling starts with the given word, in any letter case. -/
def ofWord? (word : Text) : Option Keyword :=
  let upper := word.toUpper
  if upper = question.word then some question else all.find? (·.word = upper)

def ofCode? (code : UInt8) : Option Keyword :=
  all.find? (·.code = code)

end Keyword

end Applesoft
