import TrellisTagger.Text.Blank

/-!
# Names in formulas

The names that may follow a backslash in a formula, by what they stand for.

## Main definitions

* `TrellisTagger.Formula.Name.symbols` — the names of characters.
* `TrellisTagger.Formula.Name.functions` — the names of functions.
* `TrellisTagger.Formula.Name.accents` — the names of accents.
* `TrellisTagger.Formula.Name.fonts` — the names of fonts.
* `TrellisTagger.Formula.Name.spaces`, `TrellisTagger.Formula.Name.delimiters` — spaces and
  delimiters as they are written.
-/

namespace TrellisTagger.Formula.Name

/-- The words of a text. -/
def words (s : String) : List (List Char) := fields s.toList

/-- The names of characters. -/
def symbols : List (List Char) := words
  ("AA AE BbbC BbbN BbbP BbbQ BbbR BbbZ Bumpeq Cap Colon Cup DH Delta Doteq Downarrow Equiv " ++
   "Finv Game Gamma H Im Join L Lambda Ldsh Leftarrow Leftrightarrow Lleftarrow " ++
   "Longleftarrow Longleftrightarrow Longrightarrow Lsh Nearrow Nwarrow O OE Omega P Phi Pi " ++
   "Psi QED Rdsh Re Rightarrow Rrightarrow Rsh S Searrow Sigma Subset Supset Swarrow Theta " ++
   "Thorn Uparrow Updownarrow Upsilon Vdash Vert Vvdash Xi aa ac acute acwopencirclearrow " ++
   "adots ae aleph alpha amalg angle approx approxeq approxident arceq ast asterisk asymp " ++
   "backcong backepsilon backprime backsim backsimeq backslash bagmember bar barleftarrow " ++
   "barvee barwedge because beta beth between bigcap bigcirc bigcup bigodot bigoplus " ++
   "bigotimes bigsqcup bigstar bigtriangledown bigtriangleup biguplus bigvee bigwedge " ++
   "blacksquare blacktriangle blacktriangledown blacktriangleleft blacktriangleright bot " ++
   "bowtie boxbar boxdot boxminus boxplus boxtimes breve bullet bumpeq c candra cap " ++
   "carriagereturn cdot cdotp cdots cent check checkmark chi circ circeq circlearrowleft " ++
   "circlearrowright circledR circledS circledast circledcirc circleddash circumflexaccent " ++
   "clubsuit clubsuitopen colon coloneq combiningacuteaccent combiningbreve " ++
   "combiningdiaeresis combiningdotabove combiningfourdotsabove combininggraveaccent " ++
   "combiningoverline combiningrightarrowabove combiningthreedotsabove combiningtilde " ++
   "complement cong coprod copyright cup cupdot cupleftarrow curlyeqprec curlyeqsucc " ++
   "curlyvee curlywedge curvearrowleft curvearrowright cwopencirclearrow d dag dagger daleth " ++
   "danger dashleftarrow dashrightarrow dashv ddag ddagger ddddot dddot ddot ddots degree " ++
   "delta dh diamond diamondsuit digamma disin div divideontimes dot doteq doteqdot dotminus " ++
   "dotplus dots dotsminusdots doublebarwedge downarrow downdownarrows downharpoonleft " ++
   "downharpoonright downzigzagarrow ell emdash emptyset endash epsilon eqcirc eqcolon eqdef " ++
   "eqgtr eqless eqsim eqslantgtr eqslantless equal equalparallel equiv eta eth exists " ++
   "fallingdotseq flat forall frakC frakZ frown gamma geq geqq geqslant gg ggg gimel " ++
   "gnapprox gneqq gnsim grave greater gtrapprox gtrdot gtreqless gtreqqless gtrless gtrsim " ++
   "guillemotleft guillemotright guilsinglleft guilsinglright hat hbar heartsuit " ++
   "hermitmatrix hookleftarrow hookrightarrow hslash i iiiint iiint iint imageof imath in " ++
   "increment infty int intercal invnot iota isinE isindot isinobar isins isinvb jmath k " ++
   "kappa kernelcontraction l lambda lambdabar langle lasp lbrace lbrack lceil ldots leadsto " ++
   "leftarrow leftarrowtail leftbrace leftharpoonaccent leftharpoondown leftharpoonup " ++
   "leftleftarrows leftparen leftrightarrow leftrightarrows leftrightharpoons " ++
   "leftrightsquigarrow leftsquigarrow leftthreetimes leq leqq leqslant less lessapprox " ++
   "lessdot lesseqgtr lesseqqgtr lessgtr lesssim lfloor lgroup lhd ll llcorner lll lnapprox " ++
   "lneqq lnsim longleftarrow longleftrightarrow longmapsto longrightarrow looparrowleft " ++
   "looparrowright lq lrcorner ltimes macron maltese mapsdown mapsfrom mapsto mapsup measeq " ++
   "measuredangle measuredrightangle merge mho mid minus minuscolon models mp mu multimap " ++
   "nLeftarrow nLeftrightarrow nRightarrow nVDash nVdash nabla napprox natural ncong ne " ++
   "nearrow neg neq nequiv nexists ngeq ngtr ngtrless ngtrsim ni niobar nis nisd nleftarrow " ++
   "nleftrightarrow nleq nless nlessgtr nlesssim nmid not notin notsmallowns nparallel nprec " ++
   "npreccurlyeq nrightarrow nsim nsimeq nsqsubseteq nsqsupseteq nsubset nsubseteq nsucc " ++
   "nsucccurlyeq nsupset nsupseteq ntriangleleft ntrianglelefteq ntriangleright " ++
   "ntrianglerighteq nu nvDash nvdash nwarrow o obar ocirc odot oe oequal oiiint oiint oint " ++
   "omega omicron ominus oplus origof oslash otimes overarc overleftarrow overleftrightarrow " ++
   "parallel partial perp perthousand phi pi pitchfork plus pm prec precapprox preccurlyeq " ++
   "preceq precnapprox precnsim precsim prime prod propto prurel psi quad questeq rangle " ++
   "rasp ratio rbrace rbrack rceil rfloor rgroup rhd rho rightModels rightangle rightarrow " ++
   "rightarrowbar rightarrowtail rightassert rightbrace rightharpoonaccent rightharpoondown " ++
   "rightharpoonup rightleftarrows rightleftharpoons rightparen rightrightarrows " ++
   "rightsquigarrow rightthreetimes rightzigzagarrow ring risingdotseq rq rtimes scrB scrE " ++
   "scrF scrH scrI scrL scrM scrR scre scrg scro scurel searrow setminus sharp sigma sim " ++
   "simeq simneqq sinewave slash smallin smallintclockwise smallointctrcclockwise smallowns " ++
   "smallsetminus smallvarointclockwise smile solbar spadesuit spadesuitopen sphericalangle " ++
   "sqcap sqcup sqsubset sqsubseteq sqsubsetneq sqsupset sqsupseteq sqsupsetneq ss star " ++
   "stareq sterling subset subseteq subseteqq subsetneq subsetneqq succ succapprox " ++
   "succcurlyeq succeq succnapprox succnsim succsim sum supset supseteq supseteqq supsetneq " ++
   "supsetneqq swarrow t tau textasciiacute textasciicircum textasciigrave textasciitilde " ++
   "textexclamdown textquestiondown textquotedblleft textquotedblright therefore theta " ++
   "thickspace thorn threedotcolon tilde times to top triangle triangledown triangleeq " ++
   "triangleleft trianglelefteq triangleq triangleright trianglerighteq turnednot " ++
   "twoheaddownarrow twoheadleftarrow twoheadrightarrow twoheaduparrow ulcorner underbar " ++
   "unlhd unrhd uparrow updownarrow updownarrowbar updownarrows upharpoonleft upharpoonright " ++
   "uplus upsilon upuparrows urcorner vDash varepsilon varisinobar varisins varkappa " ++
   "varlrtriangle varniobar varnis varnothing varphi varpi varpropto varrho varsigma " ++
   "vartheta vartriangle vartriangleleft vartriangleright vdash vdots vec vee veebar veeeq " ++
   "vert wedge wedgeq widebar widehat widetilde wp wr xi yen zeta")

/-- The names of functions, which are written upright. -/
def functions : List (List Char) := words
  ("arccos csc ker min arcsin deg lg Pr arctan det lim sec arg dim liminf sin cos exp limsup " ++
   "sinh cosh gcd ln sup cot hom log tan coth inf max tanh")

/-- The names of accents that are words. -/
def accents : List (List Char) := words
  ("hat breve bar grave acute tilde dot ddot dddot ddddot vec overrightarrow overleftarrow " ++
   "mathring widehat widetilde widebar")

/-- The names of accents that are signs. -/
def accentSigns : List Char := ['"', '\x60', '\'', '~', '.', '^']

/-- The names of fonts. -/
def fonts : List (List Char) := words "rm cal it tt sf bf bfit default bb frak scr regular"

/-- The spaces as they are written. -/
def spaces : List (List Char) :=
  "\\ ".toList :: words
    "\\, \\thinspace \\/ \\> \\: \\; ~ \\enspace \\quad \\qquad \\!"

/-- The delimiters as they are written. -/
def delimiters : List (List Char) := words
  ("| \\| / \\backslash \\uparrow \\downarrow \\updownarrow \\Uparrow \\Downarrow \\Updownarrow " ++
   ". \\vert \\Vert ( [ \\\x7b < \\lfloor \\langle \\lceil \\lbrace \\leftbrace \\lbrack " ++
   "\\leftparen \\lgroup ) ] \\\x7d > \\rfloor \\rangle \\rceil \\rbrace \\rightbrace \\rbrack " ++
   "\\rightparen \\rgroup")

end TrellisTagger.Formula.Name
