import MotionExport.Code.Module

/-! # Built-in templates

The template of each target language, line by line. Its slots are placeholders, so every one of them
has a text.
-/

namespace MotionExport

namespace Code

inductive Piece where
  | text (s : String)
  | slot (p : Placeholder)

namespace Piece

def toText : Piece → Text
  | text s => s.toList
  | slot p => Template.opening ++ p.key ++ Template.closing

end Piece

/-- The template of a module that implements the system as a type with its methods. -/
def rustLines : List (List Piece) := [
  [.text "//! ", .slot .name, .text " dynamic system, generated from its Autolev export files."],
  [],
  [.text "#![allow(non_snake_case, non_upper_case_globals, ",
    .text "unused_variables, unused_mut, dead_code)]"],
  [],
  [.text "use std::collections::BTreeMap;"],
  [],
  [.text "use alparse::\x7bDynamicSystem, IntegrationOptions, LinearModel\x7d;"],
  [],
  [.text "const Pi: f64 = std::f64::consts::PI;"],
  [.text "const DEGtoRAD: f64 = std::f64::consts::PI / 180.0;"],
  [.text "const RADtoDEG: f64 = 180.0 / std::f64::consts::PI;"],
  [],
  [.text "fn sin(x: f64) -> f64 \x7b x.sin() \x7d"],
  [.text "fn cos(x: f64) -> f64 \x7b x.cos() \x7d"],
  [.text "fn tan(x: f64) -> f64 \x7b x.tan() \x7d"],
  [.text "fn asin(x: f64) -> f64 \x7b x.asin() \x7d"],
  [.text "fn acos(x: f64) -> f64 \x7b x.acos() \x7d"],
  [.text "fn atan(x: f64) -> f64 \x7b x.atan() \x7d"],
  [.text "fn atan2(y: f64, x: f64) -> f64 \x7b y.atan2(x) \x7d"],
  [.text "fn sinh(x: f64) -> f64 \x7b x.sinh() \x7d"],
  [.text "fn cosh(x: f64) -> f64 \x7b x.cosh() \x7d"],
  [.text "fn tanh(x: f64) -> f64 \x7b x.tanh() \x7d"],
  [.text "fn sqrt(x: f64) -> f64 \x7b x.sqrt() \x7d"],
  [.text "fn exp(x: f64) -> f64 \x7b x.exp() \x7d"],
  [.text "fn log(x: f64) -> f64 \x7b x.ln() \x7d"],
  [.text "fn fabs(x: f64) -> f64 \x7b x.abs() \x7d"],
  [.text "fn pow(x: f64, y: f64) -> f64 \x7b x.powf(y) \x7d"],
  [],
  [.text "fn default_parameters() -> BTreeMap<String, f64> \x7b"],
  [.text "    BTreeMap::from(["],
  [.slot .parameters],
  [.text "    ])"],
  [.text "\x7d"],
  [],
  [.text "pub struct ", .slot .name, .text " \x7b"],
  [.text "    parameters: BTreeMap<String, f64>,"],
  [.text "    z: Vec<f64>,"],
  [.text "\x7d"],
  [],
  [.text "impl ", .slot .name, .text " \x7b"],
  [.text "    pub const STATE_NAMES: &'static [&'static str] = &[", .slot .stateNames, .text "];"],
  [.text "    pub const INITIAL_CONDITIONS: &'static [f64] = &[", .slot .initialConditions,
    .text "];"],
  [.text "    pub const INPUT_NAMES: &'static [&'static str] = &[", .slot .inputNames, .text "];"],
  [.text "    pub const OUTPUT_NAMES: &'static [&'static str] = &[", .slot .outputNames,
    .text "];"],
  [],
  [.text "    pub fn new() -> Self \x7b"],
  [.text "        let mut system = Self \x7b"],
  [.text "            parameters: default_parameters(),"],
  [.text "            z: vec![0.0; ", .slot .auxCount, .text "],"],
  [.text "        \x7d;"],
  [.text "        system.constants();"],
  [.text "        system"],
  [.text "    \x7d"],
  [],
  [.text "    /// Change one parameter and re-evaluate the constants."],
  [.text "    pub fn set_parameter(&mut self, name: &str, value: f64) \x7b"],
  [.text "        self.parameters.insert(name.to_string(), value);"],
  [.text "        self.constants();"],
  [.text "    \x7d"],
  [],
  [.text "    fn constants(&mut self) \x7b"],
  [.slot .constants],
  [.text "    \x7d"],
  [.text "\x7d"],
  [],
  [.text "impl Default for ", .slot .name, .text " \x7b"],
  [.text "    fn default() -> Self \x7b"],
  [.text "        Self::new()"],
  [.text "    \x7d"],
  [.text "\x7d"],
  [],
  [.text "impl DynamicSystem for ", .slot .name, .text " \x7b"],
  [.text "    fn name(&self) -> &str \x7b"],
  [.text "        \"", .slot .name, .text "\""],
  [.text "    \x7d"],
  [],
  [.text "    fn integration_options(&self) -> IntegrationOptions \x7b"],
  [.text "        IntegrationOptions \x7b"],
  [.slot .integrationOptions],
  [.text "        \x7d"],
  [.text "    \x7d"],
  [],
  [.text "    fn parameters(&self) -> &BTreeMap<String, f64> \x7b"],
  [.text "        &self.parameters"],
  [.text "    \x7d"],
  [],
  [.text "    fn state_names(&self) -> &[&str] \x7b"],
  [.text "        Self::STATE_NAMES"],
  [.text "    \x7d"],
  [],
  [.text "    fn initial_conditions(&self) -> Vec<f64> \x7b"],
  [.text "        Self::INITIAL_CONDITIONS.to_vec()"],
  [.text "    \x7d"],
  [],
  [.text "    fn input_names(&self) -> &[&str] \x7b"],
  [.text "        Self::INPUT_NAMES"],
  [.text "    \x7d"],
  [],
  [.text "    fn output_names(&self) -> &[&str] \x7b"],
  [.text "        Self::OUTPUT_NAMES"],
  [.text "    \x7d"],
  [],
  [.text "    fn derivatives(&mut self, x: &[f64], t: f64) -> Vec<f64> \x7b"],
  [.text "        let T = t;"],
  [.slot .parameterBindings],
  [.slot .stateBindings],
  [.slot .inputBindings],
  [.slot .motion],
  [.text "        ", .slot .derivativeVector],
  [.text "    \x7d"],
  [],
  [.text "    fn inputs(&self, t: f64) -> Vec<f64> \x7b"],
  [.text "        let T = t;"],
  [.slot .parameterBindings],
  [.text "        let mut u = vec![0.0; Self::INPUT_NAMES.len()];"],
  [.slot .inputs],
  [.text "        u"],
  [.text "    \x7d"],
  [],
  [.text "    fn outputs(&mut self, x: &[f64]) -> Vec<f64> \x7b"],
  [.slot .parameterBindings],
  [.slot .stateBindings],
  [.slot .steadyAuxiliaries],
  [.slot .dependents],
  [.slot .outputs],
  [.text "        ", .slot .outputVector],
  [.text "    \x7d"],
  [],
  [.text "    fn linear_model(&mut self, x: &[f64], t: f64) -> Option<LinearModel> \x7b"],
  [.text "        self.derivatives(x, t);"],
  [.text "        let T = t;"],
  [.slot .parameterBindings],
  [.slot .stateBindings],
  [.slot .inputBindings],
  [.slot .dependents],
  [.slot .outputs],
  [.text "        let mut linear = LinearModel::zeros("],
  [.text "            Self::STATE_NAMES.len(),"],
  [.text "            Self::INPUT_NAMES.len(),"],
  [.text "            Self::OUTPUT_NAMES.len(),"],
  [.text "        );"],
  [.slot .linear],
  [.text "        Some(linear)"],
  [.text "    \x7d"],
  [.text "\x7d"]]

/-- The template of a module that holds the system as a class. -/
def pythonLines : List (List Piece) := [
  [.text "\"\"\"", .slot .name,
    .text " dynamic system, generated from its Autolev export files.\"\"\""],
  [],
  [.text "from numpy import zeros, array"],
  [.text "from numpy import sin, cos, tan, sinh, cosh, tanh, sqrt, exp, log, fabs"],
  [.text "from numpy import arcsin as asin, arccos as acos, arctan as atan, arctan2 as atan2"],
  [.text "from numpy import pi as Pi"],
  [],
  [.text "DEGtoRAD = Pi / 180.0"],
  [.text "RADtoDEG = 180.0 / Pi"],
  [],
  [],
  [.text "class ", .slot .name, .text "(object):"],
  [],
  [.text "    name = '", .slot .name, .text "'"],
  [],
  [.text "    intOpts = ", .slot .integrationOptions],
  [],
  [.text "    parameters = ", .slot .parameters],
  [],
  [.text "    stateNames = ", .slot .stateNames],
  [],
  [.text "    initialConditions = ", .slot .initialConditions],
  [],
  [.text "    inputNames = ", .slot .inputNames],
  [],
  [.text "    outputNames = ", .slot .outputNames],
  [],
  [.text "    def __init__(self):"],
  [.text "        self.parameters = dict(self.parameters)"],
  [.text "        self.z = zeros(", .slot .auxCount, .text ")"],
  [.text "        n, p, m = len(self.stateNames), len(self.inputNames), len(self.outputNames)"],
  [.text "        self.A = zeros((n, n))"],
  [.text "        self.B = zeros((n, p))"],
  [.text "        self.C = zeros((m, n))"],
  [.text "        self.D = zeros((m, p))"],
  [.text "        self.constants()"],
  [],
  [.text "    def constants(self):"],
  [.text "        '''Evaluates the auxiliary terms that depend only on parameters.'''"],
  [.slot .constants],
  [.text "        pass"],
  [],
  [.text "    def f(self, x, t):"],
  [.text "        '''Returns the time derivative of the state vector at time t.'''"],
  [.text "        T = t"],
  [.slot .parameterBindings],
  [.slot .stateBindings],
  [.slot .inputBindings],
  [.slot .motion],
  [.text "        return ", .slot .derivativeVector],
  [],
  [.text "    def inputs(self, t):"],
  [.text "        '''Returns the input vector at time t.'''"],
  [.text "        T = t"],
  [.slot .parameterBindings],
  [.text "        u = zeros(len(self.inputNames))"],
  [.slot .inputs],
  [.text "        return u"],
  [],
  [.text "    def outputs(self, x):"],
  [.text "        '''Returns the output vector for the state x.'''"],
  [.slot .parameterBindings],
  [.slot .stateBindings],
  [.slot .steadyAuxiliaries],
  [.slot .dependents],
  [.slot .outputs],
  [.text "        return ", .slot .outputVector],
  [],
  [.text "    def linear(self, x, t):"],
  [.text "        '''Returns the A, B, C and D matrices evaluated at x and t.'''"],
  [.text "        self.f(x, t)"],
  [.text "        T = t"],
  [.slot .parameterBindings],
  [.slot .stateBindings],
  [.slot .inputBindings],
  [.slot .dependents],
  [.slot .outputs],
  [.slot .linear],
  [.text "        return self.A, self.B, self.C, self.D"]]

def builtinLines : Language → List (List Piece)
  | .rust => rustLines
  | .python => pythonLines

def builtinText (lang : Language) : Text :=
  (builtinLines lang).flatMap fun line => line.flatMap Piece.toText ++ ['\n']

def builtinTemplate (lang : Language) : Template := .ofText (builtinText lang)

end Code

end MotionExport
