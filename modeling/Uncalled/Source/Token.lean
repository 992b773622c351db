/-! The words of a Go source: names, keywords, marks and literals, each with the places where it
starts and stops and with what stands in the gap before it. Marks are told apart by the part they
play in the grammar, so all operators that only join two operands are one mark. -/
namespace Uncalled.Source

inductive Keyword
  | break_ | case_ | chan | const | continue_ | default | defer | else_ | fallthrough | for_
  | func | go | goto | if_ | import_ | interface | map | package | range | return_ | select
  | struct | switch | type | var
  deriving DecidableEq, Repr

inductive Mark
  | lparen | rparen | lbrack | rbrack | lbrace | rbrace
  | comma | semicolon | colon | dot | ellipsis
  | define  -- `:=`
  | assign  -- `=` alone
  | update  -- an operator joined with `=`
  | step  -- `++` and `--`
  | arrow  -- `<-`
  | star | amp | pipe | bang | tilde
  | sign  -- `+`, `-` and `^`, which stand before one operand or between two
  | binary  -- every operator that only stands between two operands
  deriving DecidableEq, Repr

inductive Lexeme
  | name (text : String)
  | word (keyword : Keyword)
  | mark (mark : Mark)
  | text  -- a string literal
  | value  -- a number or a rune literal
  deriving DecidableEq, Repr

/-- A place between two bytes of a source. Rows and columns count from zero, columns in bytes. -/
structure Point where
  offset : Nat
  row : Nat
  column : Nat
  deriving DecidableEq, Repr

namespace Point

def origin : Point := ⟨0, 0, 0⟩

def next (p : Point) (b : UInt8) : Point :=
  if b = 0x0a then ⟨p.offset + 1, p.row + 1, 0⟩ else ⟨p.offset + 1, p.row, p.column + 1⟩

def after (p : Point) (bs : List UInt8) : Point := bs.foldl next p

end Point

structure Token where
  kind : Lexeme
  start : Point
  stop : Point  -- right behind its last byte
  newline : Bool  -- a line break stands before it
  comment : Bool  -- a comment stands before it
  deriving DecidableEq, Repr

def keywords : List (String × Keyword) :=
  [("break", .break_), ("case", .case_), ("chan", .chan), ("const", .const),
   ("continue", .continue_), ("default", .default), ("defer", .defer), ("else", .else_),
   ("fallthrough", .fallthrough), ("for", .for_), ("func", .func), ("go", .go), ("goto", .goto),
   ("if", .if_), ("import", .import_), ("interface", .interface), ("map", .map),
   ("package", .package), ("range", .range), ("return", .return_), ("select", .select),
   ("struct", .struct), ("switch", .switch), ("type", .type), ("var", .var)]

def keyword? (text : String) : Option Keyword := keywords.lookup text

def Keyword.spelling (k : Keyword) : String :=
  match keywords.find? fun entry => entry.2 = k with
  | some entry => entry.1
  | none => ""

def marks : List (List Char × Mark) :=
  [(['.', '.', '.'], .ellipsis), (['<', '<', '='], .update), (['>', '>', '='], .update),
   (['&', '^', '='], .update),
   (['&', '^'], .binary), (['&', '&'], .binary), (['|', '|'], .binary), (['<', '-'], .arrow),
   (['+', '+'], .step), (['-', '-'], .step), (['=', '='], .binary), (['!', '='], .binary),
   (['<', '='], .binary), (['>', '='], .binary), ([':', '='], .define), (['+', '='], .update),
   (['-', '='], .update), (['*', '='], .update), (['/', '='], .update), (['%', '='], .update),
   (['&', '='], .update), (['|', '='], .update), (['^', '='], .update), (['<', '<'], .binary),
   (['>', '>'], .binary),
   (['('], .lparen), ([')'], .rparen), (['['], .lbrack), ([']'], .rbrack), (['\x7b'], .lbrace),
   (['\x7d'], .rbrace), ([','], .comma), ([';'], .semicolon), ([':'], .colon), (['.'], .dot),
   (['='], .assign), (['*'], .star), (['&'], .amp), (['|'], .pipe), (['!'], .bang),
   (['~'], .tilde), (['+'], .sign), (['-'], .sign), (['^'], .sign), (['/'], .binary),
   (['%'], .binary), (['<'], .binary), (['>'], .binary)]

end Uncalled.Source
